/-
# A client as it would be without certain cancellations

`World.rewind` sets the cancellations of one call or batch, the user, back to their beginning and,
for a batch, takes down the flag that they raise.  Once the user is over nobody else looks at what is
taken back, with one exception, so every step of anybody else commutes with it
(`World.step_rewind`).  The exception is the first poll of a future of the batch: it copies the flag
to the batch that it starts, so it commutes only while the flag is down.
-/
import RemoteCall.Proofs.Client.Attribution

namespace RemoteCall.Client

/-! ## 1. Taking back -/

/-- Whether a task cancels the user. -/
def Task.callsOff (user : User) : Task → Bool
  | .cancelling id _ => user == .call id
  | .stopping id _ => user == .batch id
  | _ => false

/-- What a call or batch, or one of its handles, answers when it is asked whether it is cancelled. -/
def Machine.looksCancelled (machine : Machine) : User → Bool
  | .call id => machine.calls[id]?.any Call.isCancelled
  | .batch id => machine.batches[id]?.any Batch.cancelled

/-- A cancellation of the user is set back to its beginning, and every other task is left. -/
def Task.rewind (user : User) : Task → Task
  | .cancelling id stage => .cancelling id (if user = .call id then .entry else stage)
  | .stopping id stage => .stopping id (if user = .batch id then .entry else stage)
  | task => task

/-- The flag of the user is taken down, and every other batch is left. -/
def Batch.rewind (user : User) (id : Nat) (batch : Batch) : Batch :=
  if user = .batch id then { batch with cancelled := false } else batch

/-- The client without the cancellations of the user. -/
def Machine.rewind (user : User) (machine : Machine) : Machine :=
  { machine with
    batches := machine.batches.mapIdx (Batch.rewind user)
    tasks := machine.tasks.map (Task.rewind user) }

/-- The world without the cancellations of the user. -/
def World.rewind (user : User) (world : World) : World :=
  ⟨world.machine.rewind user, world.log⟩

section

variable {user : User} {machine : Machine} {batch : Batch} {task : Task} {id : Nat} {i : TaskId}

theorem Task.rewind_eq (h : task.callsOff user = false) : task.rewind user = task := by
  cases task with
  | cancelling id stage | stopping id stage => simp_all [callsOff, rewind]
  | _ => rfl

@[simp] theorem Task.callsOff_rewind : (task.rewind user).callsOff user = task.callsOff user := by
  cases task <;> rfl

theorem Batch.rewind_eq (h : user ≠ .batch id) : batch.rewind user id = batch := if_neg h

@[simp] theorem Batch.items_rewind : (batch.rewind user id).items = batch.items := by
  unfold rewind
  split <;> rfl

@[simp] theorem Batch.keys_rewind : (batch.rewind user id).keys = batch.keys := by
  unfold rewind
  split <;> rfl

@[simp] theorem Batch.started_rewind : (batch.rewind user id).started = batch.started := by
  unfold rewind
  split <;> rfl

@[simp] theorem Batch.rewind_ofItems (items : List BatchItem) :
    (Batch.ofItems items).rewind user id = .ofItems items := by
  unfold rewind
  split <;> rfl

@[simp] theorem Batch.clone_rewind : (batch.rewind user id).clone = batch.clone := by
  simp [clone]

@[simp] theorem Batch.rewind_clone (copy : Nat) : batch.clone.rewind user copy = batch.clone := by
  unfold rewind
  split <;> rfl

@[simp] theorem Batch.addFault?_rewind (key : String) :
    (batch.rewind user id).addFault? key = batch.addFault? key := by
  simp [addFault?, contains]

theorem Batch.rewind_add (item : BatchItem) :
    (batch.add item).rewind user id = (batch.rewind user id).add item := by
  unfold rewind
  split <;> rfl

theorem Batch.rewind_start : ({ batch with started := true } : Batch).rewind user id =
    { batch.rewind user id with started := true } := by
  unfold rewind
  split <;> rfl

theorem Batch.cancelled_rewind (h : user = .batch id → batch.cancelled = false) :
    (batch.rewind user id).cancelled = batch.cancelled := by
  unfold rewind
  split
  · exact (h ‹_›).symm
  · rfl

namespace Machine

@[simp] theorem calls_rewind : (machine.rewind user).calls = machine.calls := rfl

@[simp] theorem batches_rewind :
    (machine.rewind user).batches = machine.batches.mapIdx (Batch.rewind user) := rfl

@[simp] theorem tasks_rewind :
    (machine.rewind user).tasks = machine.tasks.map (Task.rewind user) := rfl

@[simp] theorem workers_rewind : (machine.rewind user).workers id = machine.workers id := by
  unfold workers
  rw [tasks_rewind, List.filterMap_map]
  congr 1
  funext task
  cases task <;> rfl

@[simp] theorem crew_rewind : (machine.rewind user).crew id = machine.crew id := by
  unfold crew
  rw [workers_rewind]

@[simp] theorem workerLimit_rewind : (machine.rewind user).workerLimit = machine.workerLimit := rfl

@[simp] theorem depth_rewind : (machine.rewind user).depth = machine.depth := rfl

@[simp] theorem operation?_rewind : (machine.rewind user).operation? i = machine.operation? i := by
  unfold operation?
  rw [tasks_rewind, List.getElem?_map]
  cases machine.tasks[i]? with
  | none => rfl
  | some task => cases task <;> rfl

@[simp] theorem subject?_rewind : (machine.rewind user).subject? i = machine.subject? i := by
  unfold subject?
  rw [tasks_rewind, List.getElem?_map]
  cases machine.tasks[i]? with
  | none => rfl
  | some task => cases task <;> rfl

@[simp] theorem decoding?_rewind : (machine.rewind user).decoding? i = machine.decoding? i := by
  unfold decoding?
  rw [tasks_rewind, List.getElem?_map]
  cases machine.tasks[i]? with
  | none => rfl
  | some task => cases task <;> rfl

end Machine

end

/-! ## 2. What a batch leaves behind -/

/-- A batch that is over: it stays started, nothing is registered for it, and nobody works for it any
more, except collectors that are still to be refused. -/
structure Machine.Rests (machine : Machine) (id : Nat) : Prop where
  found : ∃ batch, machine.batches[id]? = some batch ∧ batch.started = true ∧ batch.aborts = []
  collectors_over : ∀ collector, .collecting id collector ∈ machine.tasks →
    collector.isOver = true ∨ collector.stage = .entry
  workers_over : ∀ stage, .working id stage ∈ machine.tasks → stage.isOver = true

/-- A team in order of which nothing is registered once the end has been told. -/
def Team.Cleared (team : Team) (callbacks : List Callback) : Prop :=
  team.InOrder callbacks ∧ ∀ result, .terminal result ∈ callbacks → team.batch.aborts = []

/-- When the end has been told the leader is over. -/
theorem Team.Balanced.over_of_told {team : Team} {callbacks : List Callback} {result : BatchEnd}
    (h : team.Balanced callbacks) (htold : .terminal result ∈ callbacks) :
    team.batch.started = true ∧ ∀ collector ∈ team.leads, collector.isOver = true := by
  cases h with
  | waiting => exact absurd htold List.not_mem_nil
  | @running _ _ collector deliveries _ hstarted =>
    refine ⟨hstarted, List.forall_mem_singleton.mpr ?_⟩
    have hresult : collector.result? = some result := by
      simpa [callbacksOf] using htold
    obtain ⟨stage, completed, errors⟩ := collector
    cases stage with
    | finished => rfl
    | _ => cases hresult

/-- When the end has been told the workers are over. -/
theorem Team.InOrder.workers_over {team : Team} {callbacks : List Callback} {result : BatchEnd}
    (h : team.InOrder callbacks) (htold : .terminal result ∈ callbacks) :
    ∀ worker ∈ team.workers, worker.isOver = true := by
  obtain ⟨collector, hlead, hclosing⟩ := h.1.closing_of_told htold
  exact (h.2 collector hlead).workers_over hclosing

theorem Team.Cleared.lasting : Team.Lasting Team.Cleared where
  blank := ⟨Team.InOrder.lasting.blank, fun _ htold => absurd htold List.not_mem_nil⟩
  copied h := ⟨Team.InOrder.lasting.copied h.1, fun _ htold => absurd htold List.not_mem_nil⟩
  polled h := ⟨Team.InOrder.lasting.polled h.1, fun _ htold => absurd htold List.not_mem_nil⟩
  step := by
    intro id limit depth timeoutMs serving team team' callbacks events h hstep
    refine ⟨Team.InOrder.lasting.step h.1 hstep, fun result htold => ?_⟩
    rcases List.mem_append.mp htold with hbefore | hnow
    · obtain ⟨hstarted, hover⟩ := h.1.1.over_of_told hbefore
      have haborts := h.2 result hbefore
      cases hstep with
      | grow => exact haborts
      | start => exact haborts
      | lead hleads _ hmove =>
        have hself := hover _ (hleads ▸ List.mem_append_right _ (List.mem_cons_self ..))
        exact absurd (hself.symm.trans hmove.not_over) (by simp)
      | work hworkers hmove =>
        have hself := h.1.workers_over hbefore _
          (hworkers ▸ List.mem_append_right _ (List.mem_cons_self ..))
        exact absurd (hself.symm.trans hmove.not_over) (by simp)
      | stop hmove =>
        cases hmove with
        | flagged | fired => exact haborts
        | swept => exact congrArg (List.map fun _ => none) haborts
    · cases hstep with
      | lead hleads hleading hmove =>
        cases hmove with
        | concluded => rfl
        | delivered => simp [Log.callbacks] at hnow
        | _ => exact absurd hnow List.not_mem_nil
      | work _ hmove =>
        rw [hmove.callbacks_eq] at hnow
        exact absurd hnow List.not_mem_nil
      | stop hmove =>
        rw [hmove.callbacks_eq] at hnow
        exact absurd hnow List.not_mem_nil
      | _ => exact absurd hnow List.not_mem_nil

/-- **A batch whose end has been told is at rest.** -/
theorem World.Reachable.rests {config : Config} {world : World} (h : Reachable config world)
    {id : Nat} {result : BatchEnd} (htold : .terminal result ∈ world.log.callbacks id) :
    world.machine.Rests id := by
  have hholds := h.holds Team.Cleared.lasting
  have hid : id < world.machine.batches.length := by
    refine Nat.lt_of_not_le fun hid => ?_
    rw [hholds.unknown id hid] at htold
    exact List.not_mem_nil htold
  have hfound := List.getElem?_eq_getElem hid
  obtain ⟨hordered, haborts⟩ := hholds.teams id _ (Machine.team?_eq hfound)
  obtain ⟨hstarted, hover⟩ := hordered.1.over_of_told htold
  refine ⟨⟨_, hfound, hstarted, haborts result htold⟩, fun collector hmem => ?_,
    fun stage hmem => ?_⟩
  · cases hleads : collector.leads with
    | true => exact .inl (hover _ (List.mem_filterMap.mpr ⟨_, hmem, Task.lead?_of_leads hleads⟩))
    | false =>
      obtain ⟨stage, completed, errors⟩ := collector
      cases stage with
      | entry => exact .inr rfl
      | finished => exact .inl rfl
      | _ => cases hleads
  · exact hordered.workers_over htold _ (List.mem_filterMap.mpr ⟨_, hmem, Task.worker?_self⟩)

/-! ## 3. Steps of others -/

section

variable {user : User} {machine : Machine} {batches : List Batch} {batch : Batch} {id : Nat}
  {i : TaskId}

theorem getElem?_mapIdx_rewind (h : user ≠ .batch id) :
    (batches.mapIdx (Batch.rewind user))[id]? = batches[id]? := by
  rw [List.getElem?_mapIdx]
  cases batches[id]? with
  | none => rfl
  | some batch => exact congrArg some (Batch.rewind_eq h)

theorem mapIdx_rewind_set (h : user ≠ .batch id) :
    (batches.set id batch).mapIdx (Batch.rewind user) =
      (batches.mapIdx (Batch.rewind user)).set id batch := by
  rw [List.mapIdx_set, Batch.rewind_eq h]

/-- An entry that differs in what is taken back only. -/
theorem mapIdx_rewind_set_eq {batch' : Batch} (hfound : batches[id]? = some batch)
    (heq : batch'.rewind user id = batch.rewind user id) :
    (batches.set id batch').mapIdx (Batch.rewind user) = batches.mapIdx (Batch.rewind user) := by
  obtain ⟨hid, rfl⟩ := List.getElem?_eq_some_iff.mp hfound
  rw [List.mapIdx_set, heq, ← List.mapIdx_set, List.set_getElem_self]

theorem WorkerStage.over_cases {stage : WorkerStage} (h : stage.isOver = true) :
    stage = .finished ∨ stage = .abandoned := by
  cases stage with
  | finished => exact .inl rfl
  | abandoned => exact .inr rfl
  | _ => cases h

/-- What a collector does that is over, or that finds its batch started. -/
theorem Collector.advance_late {collector : Collector} {limit depth : Nat} {crew : Crew}
    (hstarted : batch.started = true)
    (hlate : collector.isOver = true ∨ collector.stage = .entry) :
    collector.advance id limit depth crew batch = if collector.isOver then none else
      some ⟨batch, ⟨.finished (.error (.usage .batchExecuted)), collector.completed,
        collector.errors⟩, [], 0⟩ := by
  obtain ⟨stage, completed, errors⟩ := collector
  rcases hlate with hover | hentry
  · rw [if_pos hover]
    cases stage with
    | finished | abandoned => rfl
    | _ => cases hover
  · cases hentry
    exact if_pos hstarted

namespace Machine

/-- What a step leaves behind, without the cancellations of the user. -/
def rewindTurn (user : User) (turn : Machine × List Effect) : Machine × List Effect :=
  (turn.1.rewind user, turn.2)

/-- A step of an execution. -/
theorem callTurn_rewind (machine : Machine) (i : TaskId) (id : Nat)
    (turn? : Call → Option CallTurn) :
    (do let call ← machine.calls[id]?
        let turn ← turn? call
        return (machine.rewind user).endCallTurn i id turn) =
      (do let call ← machine.calls[id]?
          let turn ← turn? call
          return machine.endCallTurn i id turn).map (rewindTurn user) := by
  cases machine.calls[id]? with
  | none => rfl
  | some call =>
    cases hturn : turn? call with
    | none => simp [hturn]
    | some turn => simp [hturn, rewindTurn, endCallTurn, rewind, List.map_set, Task.rewind]

/-- A step of a worker, which takes none if the batch is at rest. -/
theorem workerTurn_rewind (machine : Machine) (i : TaskId) (id : Nat)
    (turn? : Batch → Option WorkerTurn) (hrests : user = .batch id → ∀ batch, turn? batch = none) :
    (do let batch ← (machine.rewind user).batches[id]?
        let turn ← turn? batch
        return (machine.rewind user).endWorkerTurn i id turn) =
      (do let batch ← machine.batches[id]?
          let turn ← turn? batch
          return machine.endWorkerTurn i id turn).map (rewindTurn user) := by
  rw [batches_rewind]
  by_cases huser : user = .batch id
  · cases hfound : machine.batches[id]? with
    | none => simp [hfound]
    | some batch => simp [hfound, hrests huser]
  · rw [getElem?_mapIdx_rewind huser]
    cases machine.batches[id]? with
    | none => rfl
    | some batch =>
      cases hturn : turn? batch with
      | none => simp [hturn]
      | some turn =>
        simp [hturn, rewindTurn, endWorkerTurn, rewind, List.map_set, Task.rewind,
          mapIdx_rewind_set huser]

/-- A step of a collector, which finds a batch that is at rest started. -/
theorem collectorTurn_rewind {collector : Collector} {limit depth : Nat} {crew : Crew}
    (hrests : user = .batch id → (∀ batch ∈ machine.batches[id]?, batch.started = true) ∧
      (collector.isOver = true ∨ collector.stage = .entry)) :
    (do let batch ← (machine.rewind user).batches[id]?
        let turn ← collector.advance id limit depth crew batch
        return (machine.rewind user).endCollectorTurn i id turn) =
      (do let batch ← machine.batches[id]?
          let turn ← collector.advance id limit depth crew batch
          return machine.endCollectorTurn i id turn).map (rewindTurn user) := by
  rw [batches_rewind]
  by_cases huser : user = .batch id
  · obtain ⟨hstarted, hlate⟩ := hrests huser
    rw [List.getElem?_mapIdx]
    cases hfound : machine.batches[id]? with
    | none => rfl
    | some batch =>
      have hbefore := hstarted batch hfound
      have hafter : (batch.rewind user id).started = true := by simpa using hbefore
      simp only [Option.map_some, Option.bind_eq_bind, Option.bind_some,
        Collector.advance_late hbefore hlate, Collector.advance_late hafter hlate]
      cases collector.isOver with
      | true => rfl
      | false =>
        simp [rewindTurn, endCollectorTurn, rewind, List.map_set, Task.rewind, List.mapIdx_set]
  · rw [getElem?_mapIdx_rewind huser]
    cases machine.batches[id]? with
    | none => rfl
    | some batch =>
      cases hturn : collector.advance id limit depth crew batch with
      | none => simp [hturn]
      | some turn =>
        simp [hturn, rewindTurn, endCollectorTurn, rewind, List.map_set, Task.rewind,
          mapIdx_rewind_set huser]

/-- A step of a cancellation of another call. -/
theorem cancelTurn_rewind {stage : CancelStage}
    (hother : (Task.cancelling id stage).callsOff user = false) :
    (do let call ← (machine.rewind user).calls[id]?
        let (call, stage, effects) ← stage.advance call
        return ({ machine.rewind user with
          calls := (machine.rewind user).calls.set id call
          tasks := (machine.tasks.map (Task.rewind user)).set i (.cancelling id stage) }, effects)) =
      (do let call ← machine.calls[id]?
          let (call, stage, effects) ← stage.advance call
          return ({ machine with
            calls := machine.calls.set id call
            tasks := machine.tasks.set i (.cancelling id stage) }, effects)).map
              (rewindTurn user) := by
  have hkept : ∀ stage', (Task.cancelling id stage').rewind user = .cancelling id stage' :=
    fun _ => Task.rewind_eq hother
  simp only [calls_rewind]
  cases machine.calls[id]? with
  | none => rfl
  | some call =>
    cases hturn : stage.advance call with
    | none => simp [hturn]
    | some turn => simp [hturn, rewindTurn, rewind, List.map_set, hkept]

/-- A step of a cancellation of another batch. -/
theorem stopTurn_rewind {stage : StopStage}
    (hother : (Task.stopping id stage).callsOff user = false) :
    (do let batch ← (machine.rewind user).batches[id]?
        let (batch, stage, effects) ← stage.advance batch
        return ({ machine.rewind user with
          batches := (machine.rewind user).batches.set id batch
          tasks := (machine.tasks.map (Task.rewind user)).set i (.stopping id stage) }, effects)) =
      (do let batch ← machine.batches[id]?
          let (batch, stage, effects) ← stage.advance batch
          return ({ machine with
            batches := machine.batches.set id batch
            tasks := machine.tasks.set i (.stopping id stage) }, effects)).map
              (rewindTurn user) := by
  have huser : user ≠ .batch id := by simpa [Task.callsOff] using hother
  have hkept : ∀ stage', (Task.stopping id stage').rewind user = .stopping id stage' :=
    fun _ => Task.rewind_eq hother
  simp only [batches_rewind]
  rw [getElem?_mapIdx_rewind huser]
  cases machine.batches[id]? with
  | none => rfl
  | some batch =>
    cases hturn : stage.advance batch with
    | none => simp [hturn]
    | some turn => simp [hturn, rewindTurn, rewind, List.map_set, hkept, mapIdx_rewind_set huser]

/-- A step of a task that is not a cancellation of the user does not see what is taken back. -/
theorem advance_rewind (hrests : ∀ id, user = .batch id → machine.Rests id)
    (hmover : machine.tasks[i]?.any (Task.callsOff user) = false) :
    (machine.rewind user).advance i = (machine.advance i).map (rewindTurn user) := by
  unfold advance
  rw [tasks_rewind, List.getElem?_map]
  cases htask : machine.tasks[i]? with
  | none => rfl
  | some task =>
    have hself : task.callsOff user = false := by simpa [htask] using hmover
    have hmem := List.mem_of_getElem? htask
    rw [Option.map_some, Task.rewind_eq hself]
    cases task with
    | executing id stage =>
      exact callTurn_rewind machine i id fun call => stage.advance machine.pool call
    | collecting id collector =>
      simp only [workerLimit_rewind, depth_rewind, crew_rewind]
      refine collectorTurn_rewind fun huser => ?_
      obtain ⟨⟨batch, hfound, hstarted, -⟩, hover, -⟩ := hrests id huser
      exact ⟨fun other hother => Option.some_inj.mp (hfound.symm.trans hother) ▸ hstarted,
        hover collector hmem⟩
    | working id stage =>
      refine workerTurn_rewind machine i id
        (fun batch => stage.advance machine.depth machine.pool batch) fun huser batch => ?_
      have hover := (hrests id huser).workers_over stage hmem
      rcases WorkerStage.over_cases hover with rfl | rfl <;> rfl
    | cancelling id stage => exact cancelTurn_rewind hself
    | stopping id stage => exact stopTurn_rewind hself

theorem expire_rewind (hrests : ∀ id, user = .batch id → machine.Rests id) :
    (machine.rewind user).expire i = (machine.expire i).map (rewindTurn user) := by
  unfold expire
  rw [tasks_rewind, List.getElem?_map]
  cases htask : machine.tasks[i]? with
  | none => rfl
  | some task =>
    cases task with
    | executing id stage =>
      exact callTurn_rewind machine i id fun call =>
        stage.expire machine.config.acquireTimeoutMs machine.pool call
    | working id stage =>
      refine workerTurn_rewind machine i id (fun batch =>
        stage.expire machine.config.acquireTimeoutMs machine.pool batch) fun huser batch => ?_
      have hover := (hrests id huser).workers_over stage (List.mem_of_getElem? htask)
      rcases WorkerStage.over_cases hover with rfl | rfl <;> rfl
    | _ => rfl

theorem answer_rewind {answer : Answer} (hrests : ∀ id, user = .batch id → machine.Rests id) :
    (machine.rewind user).answer i answer = (machine.answer i answer).map (rewindTurn user) := by
  unfold Machine.answer
  rw [tasks_rewind, List.getElem?_map]
  cases htask : machine.tasks[i]? with
  | none => rfl
  | some task =>
    cases task with
    | executing id stage =>
      exact callTurn_rewind machine i id fun call => stage.answered machine.pool call answer
    | working id stage =>
      refine workerTurn_rewind machine i id (fun batch =>
        stage.answered machine.pool batch answer) fun huser batch => ?_
      have hover := (hrests id huser).workers_over stage (List.mem_of_getElem? htask)
      rcases WorkerStage.over_cases hover with rfl | rfl <;> rfl
    | _ => rfl

end Machine

/-! ## 4. Futures -/

/-- What a poll leaves behind, without the cancellations of the user. -/
def rewindPoll {α β : Type} (user : User) (poll : α × β × Machine × List Effect) :
    α × β × Machine × List Effect :=
  (poll.1, poll.2.1, poll.2.2.1.rewind user, poll.2.2.2)

/-- The task that runs a clone is left, so its outcome is. -/
theorem CallFuture.outcome?_rewind (i : TaskId) :
    (machine.rewind user).tasks[i]?.bind CallFuture.outcome? =
      machine.tasks[i]?.bind CallFuture.outcome? := by
  rw [Machine.tasks_rewind, List.getElem?_map]
  cases machine.tasks[i]? with
  | none => rfl
  | some task => cases task <;> rfl

theorem BatchFuture.outcome?_rewind (i : TaskId) :
    (machine.rewind user).tasks[i]?.bind BatchFuture.outcome? =
      machine.tasks[i]?.bind BatchFuture.outcome? := by
  rw [Machine.tasks_rewind, List.getElem?_map]
  cases machine.tasks[i]? with
  | none => rfl
  | some task => cases task <;> rfl

/-- A future of a call does not see what is taken back. -/
theorem CallFuture.poll_rewind (future : CallFuture) :
    future.poll (machine.rewind user) = rewindPoll user (future.poll machine) := by
  unfold poll
  cases future.finished with
  | true => rfl
  | false =>
    cases hrunning : future.running with
    | some running =>
      simp only [outcome?_rewind]
      cases machine.tasks[running.1]?.bind outcome? <;> rfl
    | none =>
      simp only [Machine.calls_rewind]
      cases machine.calls[future.call]? with
      | none => rfl
      | some call =>
        by_cases hcancelled : future.cancelled ∨ call.isCancelled
        · simp [hcancelled, rewindPoll]
        · simp [hcancelled, rewindPoll, Machine.addCall, Machine.spawn, Machine.rewind, Task.rewind]

/-- A future of a batch does not see what is taken back, unless it finds the flag up when it is
polled for the first time. -/
theorem BatchFuture.poll_rewind (future : BatchFuture)
    (hrests : ∀ id, user = .batch id → machine.Rests id)
    (hflag : user = .batch future.batch → future.running = none → future.finished = false →
      machine.looksCancelled user = false) :
    future.poll (machine.rewind user) = rewindPoll user (future.poll machine) := by
  unfold poll
  cases hfinished : future.finished with
  | true => rfl
  | false =>
    cases hrunning : future.running with
    | some running =>
      simp only [outcome?_rewind]
      cases machine.tasks[running.1]?.bind outcome? <;> rfl
    | none =>
      simp only [Machine.batches_rewind, List.getElem?_mapIdx]
      cases hfound : machine.batches[future.batch]? with
      | none => rfl
      | some batch =>
        have hkept : (batch.rewind user future.batch).cancelled = batch.cancelled :=
          Batch.cancelled_rewind fun huser => by
            simpa [huser, Machine.looksCancelled, hfound] using hflag huser hrunning hfinished
        have hnew : user ≠ .batch machine.batches.length := fun huser => by
          obtain ⟨other, hother, -⟩ := (hrests _ huser).found
          exact absurd (List.getElem?_eq_some_iff.mp hother).1 (Nat.lt_irrefl _)
        simp [rewindPoll, hkept, Machine.addBatch, Machine.spawn, Machine.rewind,
          Task.rewind, Batch.rewind_eq hnew]

/-! ## 5. Worlds -/

namespace Machine

/-- What somebody orders does not see what is taken back, unless it polls a future of the batch for
the first time and finds the flag up. -/
theorem obey_rewind {order : Order} (hrests : ∀ id, user = .batch id → machine.Rests id)
    (hpoll : ∀ id, user = .batch id → order = .poll id → machine.looksCancelled user = false) :
    (machine.rewind user).obey order = (machine.obey order).map (Machine.rewind user) := by
  cases order with
  | newCall request decoder => rfl
  | cloneCall id =>
    simp only [obey, calls_rewind]
    cases machine.calls[id]? <;> rfl
  | execute id | cancel id =>
    simp only [obey, calls_rewind]
    cases machine.calls[id]? with
    | none => rfl
    | some call => simp [spawn, rewind, Task.rewind]
  | newBatch => simp [obey, addBatch, rewind]
  | addItem id item =>
    simp only [obey, batches_rewind, List.getElem?_mapIdx]
    cases machine.batches[id]? with
    | none => rfl
    | some batch =>
      simp only [Option.map_some, Option.bind_some, Batch.addFault?_rewind]
      cases batch.addFault? item.key with
      | some fault => rfl
      | none => simp [rewind, List.mapIdx_set, Batch.rewind_add]
  | cloneBatch id =>
    simp only [obey, batches_rewind, List.getElem?_mapIdx]
    cases machine.batches[id]? with
    | none => rfl
    | some batch => simp [addBatch, rewind]
  | collect id | stop id =>
    simp only [obey, batches_rewind, List.getElem?_mapIdx]
    cases machine.batches[id]? with
    | none => rfl
    | some batch => simp [spawn, rewind, Task.rewind]
  | enqueue id =>
    simp only [obey, Machine.enqueue, batches_rewind, List.getElem?_mapIdx]
    cases machine.batches[id]? with
    | none => rfl
    | some batch =>
      simp only [Option.map_some, Batch.started_rewind]
      cases hstarted : batch.started with
      | true => simp
      | false => simp [spawn, rewind, Task.rewind, List.mapIdx_set, Batch.rewind_start]
  | poll id =>
    have hfuture := (BatchFuture.ofBatch id).poll_rewind hrests fun huser _ _ => hpoll id huser rfl
    simp only [obey, batches_rewind, List.getElem?_mapIdx, hfuture]
    cases machine.batches[id]? <;> rfl

end Machine

/-- **A step of anybody but a cancellation of the user does not see what is taken back**, once the
user is at rest.  A first poll of a future of the batch is the exception. -/
theorem World.step_rewind {world : World} {label : Label}
    (hrests : ∀ id, user = .batch id → world.machine.Rests id)
    (hmover : (label.task?.bind (world.machine.tasks[·]?)).any (Task.callsOff user) = false)
    (hpoll : ∀ id, user = .batch id → label = .order (.poll id) →
      world.machine.looksCancelled user = false) :
    (world.rewind user).step label = (world.step label).map (World.rewind user) := by
  cases label with
  | order order =>
    have hobey : (world.machine.rewind user).obey order =
        (world.machine.obey order).map (Machine.rewind user) :=
      Machine.obey_rewind hrests fun id huser horder => hpoll id huser (congrArg Label.order horder)
    simp only [step, World.rewind, hobey, Option.map_map]
    rfl
  | advance i =>
    have hadvance := world.machine.advance_rewind (i := i) hrests hmover
    simp only [step, World.rewind, hadvance, Machine.decoding?_rewind, Option.map_map]
    rfl
  | expire i =>
    simp only [step, World.rewind, Machine.expire_rewind hrests, Option.map_map]
    rfl
  | answer i answer =>
    simp only [step, World.rewind, Machine.answer_rewind hrests, Machine.operation?_rewind,
      Machine.subject?_rewind]
    cases world.machine.operation? i with
    | none => rfl
    | some operation =>
      simp only [Option.bind_some, Option.map_map]
      rfl

end

end RemoteCall.Client
