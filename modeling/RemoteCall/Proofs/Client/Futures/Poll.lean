/-
# Polling a future

Futures of calls and futures of batches keep one contract by different code.  A call is cloned when
nothing has been cancelled, and then the clone is executed; a batch is always cloned, and a
cancellation that came before is passed on to the clone.  This module puts both under one set of
names, which is what the contract is stated in: what a future was made from (`Future.template`), the
clone that it runs (`Future.clone?`), and whom cancelling it cancels (`Future.target?`).

A poll has six outcomes, and `Future.Polled` lists them.  As with the steps of calls and batches
(`CallMove`, `CollectorMove`), no later proof opens the functions that poll.
-/
import RemoteCall.Client.Session.State
import RemoteCall.Proofs.Client.Rewinding

namespace RemoteCall.Client

/-! ## 1. What futures resolve to -/

/-- What a future resolves to. -/
inductive Resolution where
  | call (result : Except Error Datum)
  | batch (result : BatchEnd)

namespace Resolution

/-- How a future that was made from `template` tells that it was cancelled before anything ran. -/
def cancelled : (template : User) → Resolution
  | .call _ => call (.error .cancelled)
  | .batch _ => batch (.failure .cancelled [])

/-- How a future that was made from `template` tells that it has resolved before. -/
def spent : (template : User) → Resolution
  | .call _ => call (.error (.usage .callFutureFinished))
  | .batch _ => batch (.failure (.usage .batchFutureFinished) [])

end Resolution

namespace User

/-- Another call, or another batch. -/
def clone (clone : Nat) : User → User
  | call _ => call clone
  | batch _ => batch clone

/-- What a task comes to that runs a clone of the call or batch, once it is over. -/
def outcome? : User → Task → Option Resolution
  | call _, task => (CallFuture.outcome? task).map .call
  | batch _, task => (BatchFuture.outcome? task).map .batch

/-- The task that a future starts to run a clone of the call or batch. -/
def runner (clone : Nat) : User → Task
  | call _ => .executing clone .entry
  | batch _ => .collecting clone .launched

/-- The task that cancels a call or batch. -/
def stopper : User → Task
  | call id => .cancelling id .entry
  | batch id => .stopping id .entry

end User

/-! ## 2. Futures of calls and batches -/

namespace Future

/-- A future made from a call or a batch. -/
def of : (template : User) → Future
  | .call id => call (.ofCall id)
  | .batch id => batch (.ofBatch id)

/-- What a future was made from. -/
def template : Future → User
  | call future => .call future.call
  | batch future => .batch future.batch

/-- The task that runs a clone, and the clone. -/
def running : Future → Option (TaskId × Nat)
  | call future => future.running
  | batch future => future.running

/-- Whether the future has resolved. -/
def finished : Future → Bool
  | call future => future.finished
  | batch future => future.finished

/-- Whether the future was cancelled, as far as it notes that itself. -/
def flagged : Future → Bool
  | call future => future.cancelled
  | batch _ => false

/-- The clone that a future runs. -/
def clone? (future : Future) : Option User :=
  future.running.map fun (_, clone) => future.template.clone clone

/-- Whom a cancellation of the future cancels: its clone or, before the first poll, the batch. -/
def target? : Future → Option User
  | call future => (call future).clone?
  | batch future => some (((batch future).clone?).getD (.batch future.batch))

/-- Whom dropping the future cancels: a clone whose outcome was not waited for. -/
def deserts? (future : Future) : Option User := if future.finished then none else future.clone?

/-- Polls a future: its outcome if it is there, the future and the client. -/
def poll (machine : Machine) : Future → Option Resolution × Future × Machine
  | call future =>
    let (result, future, machine, _) := future.poll machine
    (result.map .call, call future, machine)
  | batch future =>
    let (result, future, machine, _) := future.poll machine
    (result.map .batch, batch future, machine)

/-- Cancels a future: the future, and the task that cancels for it. -/
def cancel : Future → Future × Option Task
  | call future =>
    let (future, task?) := future.cancel
    (call future, task?)
  | batch future => (batch future, some future.cancel)

/-- What dropping a future starts. -/
def drop? : Future → Option Task
  | call future => future.drop?
  | batch future => future.drop?

/-- The future, resolved. -/
def finish : Future → Future
  | call future => call { future with finished := true }
  | batch future => batch { future with finished := true }

/-- The future with a task that runs a clone. -/
def start (task : TaskId) (clone : Nat) : Future → Future
  | call future => call { future with running := some (task, clone) }
  | batch future => batch { future with running := some (task, clone) }

section

variable {future : Future} {template : User} {i : TaskId} {clone : Nat}

@[simp] theorem template_of : (of template).template = template := by cases template <;> rfl

@[simp] theorem running_of : (of template).running = none := by cases template <;> rfl

@[simp] theorem flagged_of : (of template).flagged = false := by cases template <;> rfl

@[simp] theorem finished_of : (of template).finished = false := by cases template <;> rfl

@[simp] theorem template_finish : future.finish.template = future.template := by
  cases future <;> rfl

@[simp] theorem running_finish : future.finish.running = future.running := by cases future <;> rfl

@[simp] theorem finished_finish : future.finish.finished = true := by cases future <;> rfl

@[simp] theorem template_start : (future.start i clone).template = future.template := by
  cases future <;> rfl

@[simp] theorem running_start : (future.start i clone).running = some (i, clone) := by
  cases future <;> rfl

@[simp] theorem finished_start : (future.start i clone).finished = future.finished := by
  cases future <;> rfl

@[simp] theorem flagged_finish : future.finish.flagged = future.flagged := by cases future <;> rfl

@[simp] theorem flagged_start : (future.start i clone).flagged = future.flagged := by
  cases future <;> rfl

@[simp] theorem template_cancel : future.cancel.1.template = future.template := by
  cases future <;> rfl

@[simp] theorem running_cancel : future.cancel.1.running = future.running := by
  cases future <;> rfl

@[simp] theorem finished_cancel : future.cancel.1.finished = future.finished := by
  cases future <;> rfl

/-- A cancelled future is noted as cancelled, or it is one of a batch. -/
theorem flagged_cancel : future.cancel.1.flagged = true ∨ ∃ id, future.template = .batch id := by
  cases future with
  | call => exact .inl rfl
  | batch future => exact .inr ⟨future.batch, rfl⟩

theorem flagged_cancel_of (h : future.flagged = true) : future.cancel.1.flagged = true := by
  cases future with
  | call => rfl
  | batch => cases h

theorem clone?_eq (h : future.running = some (i, clone)) :
    future.clone? = some (future.template.clone clone) := by
  simp [clone?, h]

theorem clone?_eq_some {user : User} : future.clone? = some user ↔
    ∃ i clone, future.running = some (i, clone) ∧ future.template.clone clone = user := by
  simp [clone?]

/-- Cancelling a future starts the cancellation of its target. -/
theorem cancel_task : future.cancel.2 = future.target?.map User.stopper := by
  cases future with
  | call future => cases hrunning : future.running <;>
      simp [cancel, CallFuture.cancel, CallFuture.stop?, target?, clone?, running, template,
        User.clone, User.stopper, hrunning]
  | batch future => cases hrunning : future.running <;>
      simp [cancel, BatchFuture.cancel, target?, clone?, running, template, User.clone,
        User.stopper, hrunning]

/-- Dropping a future starts the cancellation of the clone that it deserts. -/
theorem drop?_eq : future.drop? = future.deserts?.map User.stopper := by
  cases future with
  | call future => cases hfinished : future.finished <;> cases hrunning : future.running <;>
      simp [drop?, CallFuture.drop?, CallFuture.stop?, deserts?, clone?, running, template,
        finished, User.clone, User.stopper, hfinished, hrunning]
  | batch future => cases hfinished : future.finished <;> cases hrunning : future.running <;>
      simp [drop?, BatchFuture.drop?, deserts?, clone?, running, template, finished, User.clone,
        User.stopper, hfinished, hrunning]

/-- As long as there is no clone, cancelling a future of a batch cancels the batch. -/
theorem target_of_idle {id : Nat} (hidle : future.running = none)
    (htemplate : future.template = .batch id) : future.target? = some (.batch id) := by
  cases future with
  | call => cases htemplate
  | batch future =>
    have hclone : (batch future).clone? = none := by rw [clone?, hidle, Option.map_none]
    rw [target?, hclone]
    exact congrArg some htemplate

theorem clone_of_deserts {user : User} (h : future.deserts? = some user) :
    future.clone? = some user := by
  unfold deserts? at h
  split_ifs at h
  exact h

/-- Who is cancelled for a future is its clone or, before the first poll, the batch. -/
theorem target_cases {user : User} (h : future.target? = some user) :
    future.clone? = some user ∨
      future.running = none ∧ future.template = user ∧ ∃ id, user = .batch id := by
  cases future with
  | call => exact .inl h
  | batch future =>
    obtain ⟨id, running, finished⟩ := future
    cases running with
    | some running => exact .inl h
    | none => exact .inr ⟨rfl, Option.some.inj h, id, (Option.some.inj h).symm⟩

end

end Future

/-! ## 3. Polls -/

/-- Whether there is such a call or batch. -/
def Machine.Has (machine : Machine) : User → Prop
  | .call id => id < machine.calls.length
  | .batch id => id < machine.batches.length

/-- Whether the call or batch is the same in both. -/
def Machine.Same (machine machine' : Machine) : User → Prop
  | .call id => machine'.calls[id]? = machine.calls[id]?
  | .batch id => machine'.batches[id]? = machine.batches[id]?

theorem Machine.Same.refl (machine : Machine) (user : User) : machine.Same machine user := by
  cases user <;> rfl

namespace Future

/-- What a poll gives: an outcome if there is one, the future and the client. -/
inductive Polled (machine : Machine) (future : Future) :
    Option Resolution × Future × Machine → Prop
  | spent (finished : future.finished = true) :
    Polled machine future (some (.spent future.template), future, machine)
  | pending {i : TaskId} {clone : Nat} (unfinished : future.finished = false)
    (running : future.running = some (i, clone))
    (going : machine.tasks[i]?.bind future.template.outcome? = none) :
    Polled machine future (none, future, machine)
  | resolved {i : TaskId} {clone : Nat} {resolution : Resolution}
    (unfinished : future.finished = false) (running : future.running = some (i, clone))
    (ended : machine.tasks[i]?.bind future.template.outcome? = some resolution) :
    Polled machine future (some resolution, future.finish, machine)
  /-- A future of a call that was cancelled does not run anything. -/
  | withheld {id : Nat} (unfinished : future.finished = false) (unpolled : future.running = none)
    (template_eq : future.template = .call id)
    (cancelled : future.flagged = true ∨ machine.looksCancelled (.call id) = true) :
    Polled machine future (some (.cancelled future.template), future.finish, machine)
  | startedCall {id : Nat} {call : Call} (unfinished : future.finished = false)
    (unpolled : future.running = none) (template_eq : future.template = .call id)
    (found : machine.calls[id]? = some call) (unflagged : future.flagged = false)
    (uncancelled : call.isCancelled = false) :
    Polled machine future (none, future.start machine.tasks.length machine.calls.length,
      { machine with
        calls := machine.calls ++ [call.clone]
        tasks := machine.tasks ++ [.executing machine.calls.length .entry] })
  /-- A clone of a batch looks as the batch does. -/
  | startedBatch {id : Nat} {batch : Batch} (unfinished : future.finished = false)
    (unpolled : future.running = none) (template_eq : future.template = .batch id)
    (found : machine.batches[id]? = some batch) :
    Polled machine future (none, future.start machine.tasks.length machine.batches.length,
      { machine with
        batches := machine.batches ++
          [{ batch.clone with started := true, cancelled := batch.cancelled }]
        tasks := machine.tasks ++ [.collecting machine.batches.length .launched] })

theorem bind_outcome?_call (task? : Option Task) (id : Nat) :
    task?.bind (User.call id).outcome? = (task?.bind CallFuture.outcome?).map .call := by
  cases task? <;> rfl

theorem bind_outcome?_batch (task? : Option Task) (id : Nat) :
    task?.bind (User.batch id).outcome? = (task?.bind BatchFuture.outcome?).map .batch := by
  cases task? <;> rfl

variable {machine : Machine}

/-- A poll of a future of a call is one of these. -/
theorem Polled.of_call {future : CallFuture} (hknown : future.call < machine.calls.length) :
    Polled machine (call future) (poll machine (call future)) := by
  have hfound := List.getElem?_eq_getElem hknown
  generalize machine.calls[future.call] = template at hfound
  obtain ⟨id, running, cancelled, finished⟩ := future
  cases finished with
  | true => exact .spent rfl
  | false =>
    simp only [poll, CallFuture.poll, Bool.false_eq_true, if_false]
    cases running with
    | some running =>
      obtain ⟨i, clone⟩ := running
      have hrunning : (call ⟨id, some (i, clone), cancelled, false⟩).running = some (i, clone) :=
        rfl
      have houtcome := bind_outcome?_call machine.tasks[i]? id
      cases hover : machine.tasks[i]?.bind CallFuture.outcome? with
      | some result =>
        rw [hover] at houtcome
        simp only [hover]
        exact .resolved rfl hrunning houtcome
      | none =>
        rw [hover] at houtcome
        simp only [hover]
        exact .pending rfl hrunning houtcome
    | none =>
      simp only [hfound]
      split_ifs with hcancelled
      · refine .withheld rfl rfl rfl (hcancelled.imp (fun hflag => hflag) fun hflag => ?_)
        simpa [Machine.looksCancelled, hfound] using hflag
      · obtain ⟨hunflagged, huncancelled⟩ := not_or.mp hcancelled
        exact .startedCall rfl rfl rfl hfound (Bool.eq_false_iff.mpr hunflagged)
          (Bool.eq_false_iff.mpr huncancelled)

/-- A poll of a future of a batch is one of these. -/
theorem Polled.of_batch {future : BatchFuture} (hknown : future.batch < machine.batches.length) :
    Polled machine (batch future) (poll machine (batch future)) := by
  have hfound := List.getElem?_eq_getElem hknown
  generalize machine.batches[future.batch] = template at hfound
  obtain ⟨id, running, finished⟩ := future
  cases finished with
  | true => exact .spent rfl
  | false =>
    simp only [poll, BatchFuture.poll, Bool.false_eq_true, if_false]
    cases running with
    | some running =>
      obtain ⟨i, clone⟩ := running
      have hrunning : (batch ⟨id, some (i, clone), false⟩).running = some (i, clone) := rfl
      have houtcome := bind_outcome?_batch machine.tasks[i]? id
      cases hover : machine.tasks[i]?.bind BatchFuture.outcome? with
      | some result =>
        rw [hover] at houtcome
        simp only [hover]
        exact .resolved rfl hrunning houtcome
      | none =>
        rw [hover] at houtcome
        simp only [hover]
        exact .pending rfl hrunning houtcome
    | none =>
      simp only [hfound]
      exact .startedBatch rfl rfl rfl hfound

/-- **A poll is one of these.** -/
theorem poll_ok {future : Future} (hknown : machine.Has future.template) :
    Polled machine future (future.poll machine) := by
  cases future with
  | call => exact .of_call hknown
  | batch => exact .of_batch hknown

/-- The first poll sets a task to run a clone, and changes nothing else. -/
structure Starts (machine : Machine) (future : Future) (clone : Nat) (machine' : Machine) :
    Prop where
  unfinished : future.finished = false
  unpolled : future.running = none
  poll_eq : future.poll machine = (none, future.start machine.tasks.length clone, machine')
  fresh : ¬ machine.Has (future.template.clone clone)
  known : machine'.Has (future.template.clone clone)
  tasks_eq : machine'.tasks = machine.tasks ++ [future.template.runner clone]
  same : ∀ user, machine.Has user → machine.Same machine' user
  pool_eq : machine'.pool = machine.pool
  ofCall : ∀ id, future.template = .call id → ∃ call, machine.calls[id]? = some call ∧
    clone = machine.calls.length ∧ machine' = { machine with
      calls := machine.calls ++ [call.clone]
      tasks := machine.tasks ++ [.executing machine.calls.length .entry] }
  ofBatch : ∀ id, future.template = .batch id → ∃ batch, machine.batches[id]? = some batch ∧
    clone = machine.batches.length ∧ machine' = { machine with
      batches := machine.batches ++
        [{ batch.clone with started := true, cancelled := batch.cancelled }]
      tasks := machine.tasks ++ [.collecting machine.batches.length .launched] }

/-- **A poll leaves the client as it is, or it starts a clone.** -/
theorem poll_cases {future : Future} (hknown : machine.Has future.template) :
    ((future.poll machine).2.2 = machine ∧
      (future.poll machine).2.1.running = future.running) ∨
    ∃ clone machine', future.Starts machine clone machine' := by
  have hpolled := poll_ok hknown
  generalize hpoll : future.poll machine = polled at hpolled
  cases hpolled with
  | spent | pending | resolved | withheld => exact .inl ⟨rfl, by simp⟩
  | startedCall hunfinished hunpolled htemplate hfound hunflagged huncancelled =>
    refine .inr ⟨_, _, hunfinished, hunpolled, hpoll, ?_, ?_, ?_, fun user huser => ?_, rfl,
      fun id hid => ?_, fun id hid => ?_⟩
    · simp [htemplate, User.clone, Machine.Has]
    · simp [htemplate, User.clone, Machine.Has]
    · simp [htemplate, User.runner]
    · cases user with
      | call => exact List.getElem?_append_left huser
      | batch => rfl
    · cases htemplate.symm.trans hid
      exact ⟨_, hfound, rfl, rfl⟩
    · cases htemplate.symm.trans hid
  | startedBatch hunfinished hunpolled htemplate hfound =>
    refine .inr ⟨_, _, hunfinished, hunpolled, hpoll, ?_, ?_, ?_, fun user huser => ?_, rfl,
      fun id hid => ?_, fun id hid => ?_⟩
    · simp [htemplate, User.clone, Machine.Has]
    · simp [htemplate, User.clone, Machine.Has]
    · simp [htemplate, User.runner]
    · cases user with
      | call => rfl
      | batch => exact List.getElem?_append_left huser
    · cases htemplate.symm.trans hid
    · cases htemplate.symm.trans hid
      exact ⟨_, hfound, rfl, rfl⟩

/-- A future stays one of what it was made from. -/
theorem template_poll {future : Future} (hknown : machine.Has future.template) :
    (future.poll machine).2.1.template = future.template := by
  have hpolled := poll_ok hknown
  generalize future.poll machine = polled at hpolled
  cases hpolled <;> simp

/-- Polling a future does not cancel it. -/
theorem flagged_poll {future : Future} (hknown : machine.Has future.template) :
    (future.poll machine).2.1.flagged = future.flagged := by
  have hpolled := poll_ok hknown
  generalize future.poll machine = polled at hpolled
  cases hpolled <;> simp

/-- A poll that answers resolves the future. -/
theorem finished_poll {future : Future} (hknown : machine.Has future.template) :
    (future.poll machine).2.1.finished =
      (future.finished || (future.poll machine).1.isSome) := by
  have hpolled := poll_ok hknown
  generalize future.poll machine = polled at hpolled
  cases hpolled with
  | spent hfinished => simp [hfinished]
  | resolved | withheld => simp
  | pending hunfinished | startedCall hunfinished | startedBatch hunfinished => simp [hunfinished]

/-- **The first poll** of a future of a call that is cancelled answers so; every other one starts a
clone. -/
theorem first_poll {future : Future} (hknown : machine.Has future.template)
    (hunfinished : future.finished = false) (hunpolled : future.running = none) :
    (∃ id, future.template = .call id ∧
      (future.flagged = true ∨ machine.looksCancelled future.template = true) ∧
      future.poll machine = (some (.cancelled future.template), future.finish, machine)) ∨
    ((∃ id, future.template = .batch id) ∨
      ¬ (future.flagged = true ∨ machine.looksCancelled future.template = true)) ∧
      ∃ clone machine', future.Starts machine clone machine' := by
  have hpolled := poll_ok hknown
  have hcases := poll_cases hknown
  generalize hpoll : future.poll machine = polled at hpolled hcases
  cases hpolled with
  | spent hfinished => cases hfinished.symm.trans hunfinished
  | pending _ hrunning | resolved _ hrunning => cases hrunning.symm.trans hunpolled
  | withheld _ _ htemplate hcancelled =>
    exact .inl ⟨_, htemplate, htemplate ▸ hcancelled, rfl⟩
  | startedCall _ _ htemplate hfound hunflagged huncancelled =>
    refine .inr ⟨.inr ?_, hcases.resolve_left fun hsame => ?_⟩
    · rw [htemplate, Machine.looksCancelled, hfound]
      simp [hunflagged, huncancelled]
    · simp [hunpolled] at hsame
  | startedBatch _ _ htemplate =>
    refine .inr ⟨.inl ⟨_, htemplate⟩, hcases.resolve_left fun hsame => ?_⟩
    simp [hunpolled] at hsame

end Future

end RemoteCall.Client
