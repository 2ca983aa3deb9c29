/-
# What a step of a client does

Whatever happens to a client is a step of one of its tasks or a user's order.  `Step` lists the
cases: each says which task has moved, by which move, and what became of the client.
`World.step_ok` says that a world takes no other steps, and `World.Reachable.induct` turns that into
the principle by which all invariants of runs are proved: what holds of a new client and is kept by
every `Step` holds of every reachable world.
-/
import RemoteCall.Proofs.Client.Moves.Batch
import RemoteCall.Proofs.Client.Moves.Call

namespace RemoteCall.Client

/-- A task that has not done anything. -/
inductive Task.IsFresh (machine : Machine) : Task → Prop
  | executing {id : Nat} (known : id < machine.calls.length) :
    IsFresh machine (.executing id .entry)
  | cancelling {id : Nat} (known : id < machine.calls.length) :
    IsFresh machine (.cancelling id .entry)
  | collecting {id : Nat} (known : id < machine.batches.length) :
    IsFresh machine (.collecting id .new)
  | stopping {id : Nat} (known : id < machine.batches.length) :
    IsFresh machine (.stopping id .entry)

/-- A step of a client, with the events that are logged.  `mover?` is the task that takes it; a user
who orders something is none. -/
inductive Step (machine : Machine) : (mover? : Option Task) → Machine → List Event → Prop
  | newCall (request : Request) (decoder : Adapter) :
    Step machine none { machine with calls := machine.calls ++ [.new request decoder] } []
  | newBatch {fresh : Batch}
    (known : fresh = .ofItems [] ∨ ∃ batch ∈ machine.batches, fresh = batch.clone) :
    Step machine none { machine with batches := machine.batches ++ [fresh] } []
  | addItem {id : Nat} {batch : Batch} {item : BatchItem}
    (found : machine.batches[id]? = some batch) (allowed : batch.addFault? item.key = none) :
    Step machine none { machine with batches := machine.batches.set id (batch.add item) } []
  | spawn {task : Task} (fresh : task.IsFresh machine) :
    Step machine none { machine with tasks := machine.tasks ++ [task] } []
  | enqueue {id : Nat} {batch : Batch} (found : machine.batches[id]? = some batch)
    (unstarted : batch.started = false) :
    Step machine none { machine with
      batches := machine.batches.set id { batch with started := true }
      tasks := machine.tasks ++ [.collecting id .launched] } []
  | poll {batch : Batch} (found : batch ∈ machine.batches) :
    Step machine none { machine with
      batches := machine.batches ++
        [{ batch.clone with started := true, cancelled := batch.cancelled }]
      tasks := machine.tasks ++ [.collecting machine.batches.length .launched] } []
  | executing {before after : List Task} {id : Nat} {stage stage' : CallStage} {call call' : Call}
    {pool' : Pool} {events : List Event}
    (tasks_eq : machine.tasks = before ++ .executing id stage :: after)
    (found : machine.calls[id]? = some call)
    (move : CallMove id machine.pool call stage pool' call' stage' events) :
    Step machine (some (.executing id stage)) { machine with
      pool := pool'
      calls := machine.calls.set id call'
      tasks := before ++ .executing id stage' :: after } events
  | cancelling {before after : List Task} {id : Nat} {stage stage' : CancelStage}
    {call call' : Call} {events : List Event}
    (tasks_eq : machine.tasks = before ++ .cancelling id stage :: after)
    (found : machine.calls[id]? = some call) (move : CancelMove call stage call' stage' events) :
    Step machine (some (.cancelling id stage)) { machine with
      calls := machine.calls.set id call'
      tasks := before ++ .cancelling id stage' :: after } events
  | collecting {before after : List Task} {id hired : Nat} {collector collector' : Collector}
    {batch batch' : Batch} {events : List Event}
    (tasks_eq : machine.tasks = before ++ .collecting id collector :: after)
    (found : machine.batches[id]? = some batch)
    (move : CollectorMove id machine.workerLimit (machine.crew id) batch collector batch' collector'
      hired events) :
    Step machine (some (.collecting id collector)) { machine with
      batches := machine.batches.set id batch'
      tasks := before ++ .collecting id collector' :: after
        ++ List.replicate hired (.working id .acquiring) } events
  | working {before after : List Task} {id : Nat} {stage stage' : WorkerStage}
    {batch batch' : Batch} {pool' : Pool} {events : List Event}
    (tasks_eq : machine.tasks = before ++ .working id stage :: after)
    (found : machine.batches[id]? = some batch)
    (move : WorkerMove id machine.depth machine.config.acquireTimeoutMs machine.pool batch stage
      pool' batch' stage' events) :
    Step machine (some (.working id stage)) { machine with
      pool := pool'
      batches := machine.batches.set id batch'
      tasks := before ++ .working id stage' :: after } events
  | stopping {before after : List Task} {id : Nat} {stage stage' : StopStage}
    {batch batch' : Batch} {events : List Event}
    (tasks_eq : machine.tasks = before ++ .stopping id stage :: after)
    (found : machine.batches[id]? = some batch) (move : StopMove batch stage batch' stage' events) :
    Step machine (some (.stopping id stage)) { machine with
      batches := machine.batches.set id batch'
      tasks := before ++ .stopping id stage' :: after } events

/-- The task that takes a step of a run. -/
def Label.task? : Label → Option TaskId
  | order _ => none
  | advance i | expire i | answer i _ => some i

/-- A list around one of its entries. -/
theorem exists_split {α : Type} {list : List α} {i : Nat} {a : α} (h : list[i]? = some a) :
    ∃ before after, list = before ++ a :: after ∧
      ∀ b, list.set i b = before ++ b :: after := by
  obtain ⟨hi, rfl⟩ := List.getElem?_eq_some_iff.mp h
  refine ⟨list.take i, list.drop (i + 1), ?_, fun b => ?_⟩
  · rw [List.getElem_cons_drop, List.take_append_drop]
  · rw [List.set_eq_take_append_cons_drop, if_pos hi]

/-- What a user orders is a step. -/
theorem Machine.obey_ok {machine machine' : Machine} {order : Order}
    (h : machine.obey order = some machine') : Step machine none machine' [] := by
  cases order with
  | newCall request decoder =>
    cases h
    exact .newCall request decoder
  | cloneCall id =>
    obtain ⟨call, -, rfl⟩ := Option.map_eq_some_iff.mp h
    exact .newCall call.request call.decoder
  | execute id =>
    obtain ⟨call, hcall, rfl⟩ := Option.map_eq_some_iff.mp h
    exact .spawn (.executing (List.getElem?_eq_some_iff.mp hcall).1)
  | cancel id =>
    obtain ⟨call, hcall, rfl⟩ := Option.map_eq_some_iff.mp h
    exact .spawn (.cancelling (List.getElem?_eq_some_iff.mp hcall).1)
  | newBatch =>
    cases h
    exact .newBatch (.inl rfl)
  | addItem id item =>
    obtain ⟨batch, hbatch, h⟩ := Option.bind_eq_some_iff.mp h
    cases hfault : batch.addFault? item.key with
    | some fault =>
      rw [hfault] at h
      cases h
    | none =>
      rw [hfault] at h
      cases h
      exact .addItem hbatch hfault
  | cloneBatch id =>
    obtain ⟨batch, hbatch, rfl⟩ := Option.map_eq_some_iff.mp h
    exact .newBatch (.inr ⟨batch, List.mem_of_getElem? hbatch, rfl⟩)
  | collect id =>
    obtain ⟨batch, hbatch, rfl⟩ := Option.map_eq_some_iff.mp h
    exact .spawn (.collecting (List.getElem?_eq_some_iff.mp hbatch).1)
  | enqueue id =>
    simp only [obey, enqueue] at h
    cases hbatch : machine.batches[id]? with
    | none =>
      rw [hbatch] at h
      cases h
    | some batch =>
      rw [hbatch] at h
      cases hstarted : batch.started with
      | true =>
        simp only [hstarted, if_true] at h
        cases h
      | false =>
        simp only [hstarted, Bool.false_eq_true, if_false] at h
        cases h
        exact .enqueue hbatch hstarted
  | poll id =>
    obtain ⟨batch, hbatch, rfl⟩ := Option.map_eq_some_iff.mp h
    have hpoll := Step.poll (List.mem_of_getElem? hbatch)
    simpa [BatchFuture.poll, BatchFuture.ofBatch, hbatch, addBatch, spawn] using hpoll
  | stop id =>
    obtain ⟨batch, hbatch, rfl⟩ := Option.map_eq_some_iff.mp h
    exact .spawn (.stopping (List.getElem?_eq_some_iff.mp hbatch).1)

/-- **An internal step of a task is a step.** -/
theorem Machine.advance_ok {machine machine' : Machine} {i : TaskId} {effects : List Effect}
    (h : machine.advance i = some (machine', effects)) :
    Step machine machine.tasks[i]? machine'
      ((machine.decoding? i).toList.map .ofDecoding ++ effects.map .effect) := by
  unfold advance at h
  unfold decoding?
  cases htask : machine.tasks[i]? with
  | none =>
    rw [htask] at h
    cases h
  | some task =>
    rw [htask] at h
    obtain ⟨before, after, htasks, hset⟩ := exists_split htask
    cases task with
    | executing id stage =>
      obtain ⟨call, hcall, h⟩ := Option.bind_eq_some_iff.mp h
      obtain ⟨turn, hturn, h⟩ := Option.bind_eq_some_iff.mp h
      cases h
      simp only [hcall, Option.bind_some, hset]
      exact .executing htasks hcall (.of_advance hturn)
    | cancelling id stage =>
      obtain ⟨call, hcall, h⟩ := Option.bind_eq_some_iff.mp h
      obtain ⟨⟨call', stage', effects'⟩, hturn, h⟩ := Option.bind_eq_some_iff.mp h
      cases h
      simp only [hset]
      exact .cancelling htasks hcall (.of_advance hturn)
    | collecting id collector =>
      obtain ⟨batch, hbatch, h⟩ := Option.bind_eq_some_iff.mp h
      obtain ⟨turn, hturn, h⟩ := Option.bind_eq_some_iff.mp h
      cases h
      simp only [hset]
      exact .collecting htasks hbatch (.of_advance hturn)
    | working id stage =>
      obtain ⟨batch, hbatch, h⟩ := Option.bind_eq_some_iff.mp h
      obtain ⟨turn, hturn, h⟩ := Option.bind_eq_some_iff.mp h
      cases h
      simp only [hset]
      exact .working htasks hbatch (.of_advance hturn)
    | stopping id stage =>
      obtain ⟨batch, hbatch, h⟩ := Option.bind_eq_some_iff.mp h
      obtain ⟨⟨batch', stage', effects'⟩, hturn, h⟩ := Option.bind_eq_some_iff.mp h
      cases h
      simp only [hset]
      exact .stopping htasks hbatch (.of_advance hturn)

/-- The end of a wait is a step. -/
theorem Machine.expire_ok {machine machine' : Machine} {i : TaskId} {effects : List Effect}
    (h : machine.expire i = some (machine', effects)) :
    Step machine machine.tasks[i]? machine' (effects.map .effect) := by
  unfold expire at h
  cases htask : machine.tasks[i]? with
  | none =>
    rw [htask] at h
    cases h
  | some task =>
    rw [htask] at h
    obtain ⟨before, after, htasks, hset⟩ := exists_split htask
    cases task with
    | executing id stage =>
      obtain ⟨call, hcall, h⟩ := Option.bind_eq_some_iff.mp h
      obtain ⟨turn, hturn, h⟩ := Option.bind_eq_some_iff.mp h
      cases h
      simp only [hset]
      exact .executing htasks hcall (.of_expire hturn)
    | working id stage =>
      obtain ⟨batch, hbatch, h⟩ := Option.bind_eq_some_iff.mp h
      obtain ⟨turn, hturn, h⟩ := Option.bind_eq_some_iff.mp h
      cases h
      simp only [hset]
      exact .working htasks hbatch (.of_expire hturn)
    | _ => cases h

/-- An answer to an operation is a step. -/
theorem Machine.answer_ok {machine machine' : Machine} {i : TaskId} {operation : Operation}
    {answer : Answer} {effects : List Effect} (hoperation : machine.operation? i = some operation)
    (h : machine.answer i answer = some (machine', effects)) :
    Step machine machine.tasks[i]? machine'
      (.exchange (machine.subject? i) operation answer :: effects.map .effect) := by
  unfold Machine.answer at h
  unfold operation? at hoperation
  unfold subject?
  cases htask : machine.tasks[i]? with
  | none =>
    rw [htask] at h
    cases h
  | some task =>
    rw [htask] at h hoperation
    obtain ⟨before, after, htasks, hset⟩ := exists_split htask
    cases task with
    | executing id stage =>
      obtain ⟨call, hcall, h⟩ := Option.bind_eq_some_iff.mp h
      obtain ⟨turn, hturn, h⟩ := Option.bind_eq_some_iff.mp h
      simp only [hcall, Option.bind_some] at hoperation
      cases h
      simp only [hset]
      exact .executing htasks hcall (.of_answered hoperation hturn)
    | working id stage =>
      obtain ⟨batch, hbatch, h⟩ := Option.bind_eq_some_iff.mp h
      obtain ⟨turn, hturn, h⟩ := Option.bind_eq_some_iff.mp h
      cases h
      simp only [hset]
      exact .working htasks hbatch (.of_answered hoperation hturn)
    | _ => cases h

namespace World

/-- **A world takes no steps but these.** -/
theorem step_ok {world world' : World} {label : Label} (h : world.step label = some world') :
    ∃ events,
      Step world.machine (label.task?.bind (world.machine.tasks[·]?)) world'.machine events ∧
        world'.log = world.log ++ events := by
  cases label with
  | order order =>
    obtain ⟨machine, hmachine, rfl⟩ := Option.map_eq_some_iff.mp h
    exact ⟨[], Machine.obey_ok hmachine, (List.append_nil _).symm⟩
  | advance i =>
    obtain ⟨⟨machine, effects⟩, hmachine, rfl⟩ := Option.map_eq_some_iff.mp h
    exact ⟨_, Machine.advance_ok hmachine, rfl⟩
  | expire i =>
    obtain ⟨⟨machine, effects⟩, hmachine, rfl⟩ := Option.map_eq_some_iff.mp h
    exact ⟨_, Machine.expire_ok hmachine, rfl⟩
  | answer i answer =>
    obtain ⟨operation, hoperation, h⟩ := Option.bind_eq_some_iff.mp h
    obtain ⟨⟨machine, effects⟩, hmachine, rfl⟩ := Option.map_eq_some_iff.mp h
    exact ⟨_, Machine.answer_ok hoperation hmachine, rfl⟩

/-- **What holds at first and is kept by every step holds in every reachable world.** -/
theorem Reachable.induct {config : Config} {Inv : Machine → Log → Prop}
    (hnew : Inv (.new config) [])
    (hstep : ∀ {machine mover? machine' log events}, Reachable config ⟨machine, log⟩ →
      Inv machine log → Step machine mover? machine' events → Inv machine' (log ++ events))
    {world : World} (h : Reachable config world) : Inv world.machine world.log := by
  induction h with
  | new => exact hnew
  | step hbefore htaken ih =>
    obtain ⟨events, hmove, hlog⟩ := step_ok htaken
    rw [hlog]
    exact hstep hbefore ih hmove

end World

end RemoteCall.Client
