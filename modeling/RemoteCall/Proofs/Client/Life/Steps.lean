/-
# The executions of a client, step by step

`Step` says which task moves but not where it stands among the tasks, so two executions of one call
that are alike cannot be told apart in it.  Here the place of a task is its name: in a step one
execution moves, and the others stay what they are, or no execution moves (`World.Moves`).  What is
asked of the endpoint in a step is what the task that is answered waits for (`World.exchange?`).
-/
import RemoteCall.Proofs.Client.Settling
import RemoteCall.Proofs.Client.Requests

namespace RemoteCall.Client

/-! ## 1. Which execution moves -/

/-- What happens to the executions of a client in a step: one of them moves, or none does. -/
inductive World.Moves (world : World) (label : Label) : World → Prop
  | execution {i : TaskId} {id : Nat} {stage stage' : CallStage} {call call' : Call} {pool' : Pool}
    {events : Log} (mover : label.task? = some i)
    (task_eq : world.machine.tasks[i]? = some (.executing id stage))
    (found : world.machine.calls[id]? = some call)
    (move : CallMove id world.machine.pool call stage pool' call' stage' events)
    (limit : ∀ timeoutMs, stage' = .settling (.error (.poolTimeout timeoutMs)) →
      stage = .acquiring → timeoutMs = world.machine.config.acquireTimeoutMs) :
    Moves world label ⟨{ world.machine with
      pool := pool'
      calls := world.machine.calls.set id call'
      tasks := world.machine.tasks.set i (.executing id stage') }, world.log ++ events⟩
  | other {next : World}
    (unmoved : ∀ i, label.task? = some i → ∀ id stage,
      world.machine.tasks[i]? ≠ some (.executing id stage))
    (kept : ∀ (i : TaskId) id stage, world.machine.tasks[i]? = some (.executing id stage) →
      next.machine.tasks[i]? = some (.executing id stage))
    (fresh : ∀ (i : TaskId) id stage, next.machine.tasks[i]? = some (.executing id stage) →
      world.machine.tasks[i]? = some (.executing id stage) ∨ stage = .entry) :
    Moves world label next

/-- What a user orders adds executions that have not begun. -/
theorem Step.tasks_of_order {machine machine' : Machine} {events : List Event}
    (h : Step machine none machine' events) :
    ∃ added, machine'.tasks = machine.tasks ++ added ∧
      ∀ id stage, .executing id stage ∈ added → stage = .entry := by
  cases h with
  | newCall | newBatch | addItem =>
    exact ⟨[], (List.append_nil _).symm, fun _ _ hmem => absurd hmem List.not_mem_nil⟩
  | spawn hfresh =>
    refine ⟨_, rfl, fun id stage hmem => ?_⟩
    cases List.mem_singleton.mp hmem
    cases hfresh
    rfl
  | enqueue | poll =>
    refine ⟨_, rfl, fun id stage hmem => ?_⟩
    cases List.mem_singleton.mp hmem

/-- Whoever gets a connection or a slot has not waited in vain. -/
theorem CallStage.unlimited_of_acquire {pool : Pool} {call : Call} {turn : CallTurn}
    (h : acquire pool call = some turn) (limit : Nat) :
    turn.stage ≠ .settling (.error (.poolTimeout limit)) := by
  intro hstage
  unfold acquire at h
  split at h
  · cases h
    cases hstage
  · split at h <;> cases h <;> cases hstage

/-- The wait for a connection ends at the limit of the client. -/
theorem CallStage.limit_of_expire {timeoutMs : Nat} {pool : Pool} {call : Call} {stage : CallStage}
    {turn : CallTurn} (h : stage.expire timeoutMs pool call = some turn) (limit : Nat)
    (hstage : turn.stage = .settling (.error (.poolTimeout limit))) : limit = timeoutMs := by
  cases stage with
  | acquiring =>
    simp only [expire] at h
    cases hacquire : acquire pool call with
    | some other =>
      rw [hacquire] at h
      cases h
      exact absurd hstage (unlimited_of_acquire hacquire limit)
    | none =>
      rw [hacquire] at h
      cases h
      cases hstage
      rfl
  | _ => cases h

section

variable {world next : World} {label : Label} {i : TaskId}

/-- If the task that moves is no execution, no execution moves. -/
theorem World.Moves.of_set {task task' : Task} {added : List Task} (hmover : label.task? = some i)
    (htask : world.machine.tasks[i]? = some task)
    (htasks : next.machine.tasks = world.machine.tasks.set i task' ++ added)
    (hold : ∀ id stage, task ≠ .executing id stage)
    (hnew : ∀ id stage, .executing id stage ∉ task' :: added) : world.Moves label next := by
  have hi := (List.getElem?_eq_some_iff.mp htask).1
  refine .other (fun j hj id stage hself => ?_) (fun j id stage hself => ?_)
    (fun j id stage hself => ?_)
  · cases hmover.symm.trans hj
    cases htask.symm.trans hself
    exact hold id stage rfl
  · have hne : i ≠ j := by
      rintro rfl
      cases htask.symm.trans hself
      exact hold id stage rfl
    have hj := (List.getElem?_eq_some_iff.mp hself).1
    rw [htasks, List.getElem?_append_left (by rwa [List.length_set]), List.getElem?_set_ne hne,
      hself]
  · rw [htasks, List.getElem?_append] at hself
    split at hself
    · by_cases hne : i = j
      · subst hne
        rw [List.getElem?_set_self hi] at hself
        cases hself
        exact absurd (List.mem_cons_self ..) (hnew id stage)
      · rw [List.getElem?_set_ne hne] at hself
        exact .inl hself
    · exact absurd (List.mem_cons_of_mem _ (List.mem_of_getElem? hself)) (hnew id stage)

theorem World.Moves.of_advance {machine : Machine} {effects : List Effect}
    (h : world.machine.advance i = some (machine, effects)) :
    world.Moves (.advance i) ⟨machine, world.log ++
      ((world.machine.decoding? i).toList.map .ofDecoding ++ effects.map .effect)⟩ := by
  unfold Machine.advance at h
  unfold Machine.decoding?
  cases htask : world.machine.tasks[i]? with
  | none =>
    rw [htask] at h
    cases h
  | some task =>
    rw [htask] at h
    cases task with
    | executing id stage =>
      obtain ⟨call, hcall, h⟩ := Option.bind_eq_some_iff.mp h
      obtain ⟨turn, hturn, h⟩ := Option.bind_eq_some_iff.mp h
      cases h
      simp only [hcall, Option.bind_some]
      refine .execution rfl htask hcall (.of_advance hturn) fun limit hlimit hstage => ?_
      subst hstage
      exact absurd hlimit (CallStage.unlimited_of_acquire hturn limit)
    | cancelling id stage =>
      obtain ⟨call, hcall, h⟩ := Option.bind_eq_some_iff.mp h
      obtain ⟨⟨call', stage', effects'⟩, hturn, h⟩ := Option.bind_eq_some_iff.mp h
      cases h
      exact .of_set rfl htask (List.append_nil _).symm (by simp) (by simp)
    | collecting id collector =>
      obtain ⟨batch, hbatch, h⟩ := Option.bind_eq_some_iff.mp h
      obtain ⟨turn, hturn, h⟩ := Option.bind_eq_some_iff.mp h
      cases h
      exact .of_set rfl htask rfl (by simp) (by simp)
    | working id stage =>
      obtain ⟨batch, hbatch, h⟩ := Option.bind_eq_some_iff.mp h
      obtain ⟨turn, hturn, h⟩ := Option.bind_eq_some_iff.mp h
      cases h
      exact .of_set rfl htask (List.append_nil _).symm (by simp) (by simp)
    | stopping id stage =>
      obtain ⟨batch, hbatch, h⟩ := Option.bind_eq_some_iff.mp h
      obtain ⟨⟨batch', stage', effects'⟩, hturn, h⟩ := Option.bind_eq_some_iff.mp h
      cases h
      exact .of_set rfl htask (List.append_nil _).symm (by simp) (by simp)

theorem World.Moves.of_expire {machine : Machine} {effects : List Effect}
    (h : world.machine.expire i = some (machine, effects)) :
    world.Moves (.expire i) ⟨machine, world.log ++ effects.map .effect⟩ := by
  unfold Machine.expire at h
  cases htask : world.machine.tasks[i]? with
  | none =>
    rw [htask] at h
    cases h
  | some task =>
    rw [htask] at h
    cases task with
    | executing id stage =>
      obtain ⟨call, hcall, h⟩ := Option.bind_eq_some_iff.mp h
      obtain ⟨turn, hturn, h⟩ := Option.bind_eq_some_iff.mp h
      cases h
      exact .execution rfl htask hcall (.of_expire hturn) fun limit hlimit _ =>
        CallStage.limit_of_expire hturn limit hlimit
    | working id stage =>
      obtain ⟨batch, hbatch, h⟩ := Option.bind_eq_some_iff.mp h
      obtain ⟨turn, hturn, h⟩ := Option.bind_eq_some_iff.mp h
      cases h
      exact .of_set rfl htask (List.append_nil _).symm (by simp) (by simp)
    | _ => cases h

theorem World.Moves.of_answer {machine : Machine} {operation : Operation} {answer : Answer}
    {effects : List Effect} (hoperation : world.machine.operation? i = some operation)
    (h : world.machine.answer i answer = some (machine, effects)) :
    world.Moves (.answer i answer) ⟨machine, world.log ++
      (.exchange (world.machine.subject? i) operation answer :: effects.map .effect)⟩ := by
  unfold Machine.answer at h
  unfold Machine.operation? at hoperation
  unfold Machine.subject?
  cases htask : world.machine.tasks[i]? with
  | none =>
    rw [htask] at h
    cases h
  | some task =>
    rw [htask] at h hoperation
    cases task with
    | executing id stage =>
      obtain ⟨call, hcall, h⟩ := Option.bind_eq_some_iff.mp h
      obtain ⟨turn, hturn, h⟩ := Option.bind_eq_some_iff.mp h
      simp only [hcall, Option.bind_some] at hoperation
      cases h
      refine .execution rfl htask hcall (.of_answered hoperation hturn)
        fun limit hlimit hstage => ?_
      subst hstage
      cases hoperation
    | working id stage =>
      obtain ⟨batch, hbatch, h⟩ := Option.bind_eq_some_iff.mp h
      obtain ⟨turn, hturn, h⟩ := Option.bind_eq_some_iff.mp h
      cases h
      exact .of_set rfl htask (List.append_nil _).symm (by simp) (by simp)
    | _ => cases h

/-- **One execution moves in a step, or none does.** -/
theorem World.step_moves (h : world.step label = some next) : world.Moves label next := by
  cases label with
  | order order =>
    obtain ⟨machine, hmachine, rfl⟩ := Option.map_eq_some_iff.mp h
    obtain ⟨added, htasks, hfresh⟩ := (Machine.obey_ok hmachine).tasks_of_order
    refine .other nofun (fun j id stage hself => ?_) (fun j id stage hself => ?_)
    · show machine.tasks[j]? = _
      rw [htasks, List.getElem?_append_left (List.getElem?_eq_some_iff.mp hself).1, hself]
    · replace hself : machine.tasks[j]? = some (.executing id stage) := hself
      rw [htasks, List.getElem?_append] at hself
      split at hself
      · exact .inl hself
      · exact .inr (hfresh id stage (List.mem_of_getElem? hself))
  | advance i =>
    obtain ⟨⟨machine, effects⟩, hmachine, rfl⟩ := Option.map_eq_some_iff.mp h
    exact .of_advance hmachine
  | expire i =>
    obtain ⟨⟨machine, effects⟩, hmachine, rfl⟩ := Option.map_eq_some_iff.mp h
    exact .of_expire hmachine
  | answer i answer =>
    obtain ⟨operation, hoperation, h⟩ := Option.bind_eq_some_iff.mp h
    obtain ⟨⟨machine, effects⟩, hmachine, rfl⟩ := Option.map_eq_some_iff.mp h
    exact .of_answer hoperation hmachine

/-- Where the executions come from that there are after a step: they were there before, are new, or
have moved. -/
theorem World.executions_step {id : Nat} {stage' : CallStage} (h : world.step label = some next)
    (hmem : .executing id stage' ∈ next.machine.tasks) :
    .executing id stage' ∈ world.machine.tasks ∨ stage' = .entry ∨
      ∃ stage call pool' call' events, .executing id stage ∈ world.machine.tasks ∧
        world.machine.calls[id]? = some call ∧
        CallMove id world.machine.pool call stage pool' call' stage' events := by
  obtain ⟨j, hj⟩ := List.mem_iff_getElem?.mp hmem
  cases World.step_moves h with
  | execution hmover htask hfound hmove =>
    rcases getElem?_of_set hj with ⟨-, hself⟩ | hj
    · cases hself
      exact .inr (.inr ⟨_, _, _, _, _, List.mem_of_getElem? htask, hfound, hmove⟩)
    · exact .inl (List.mem_of_getElem? hj)
  | other hunmoved hkept hfresh =>
    exact (hfresh j id stage' hj).imp List.mem_of_getElem? .inl

end

/-! ## 2. What the endpoint is asked -/

/-- What the endpoint is asked in a step, with what it is asked for and its answer. -/
def World.exchange? (world : World) : Label → Option (Option Subject × Operation × Answer)
  | .answer i answer => (world.machine.operation? i).map fun operation =>
    (world.machine.subject? i, operation, answer)
  | _ => none

/-- What task `i` asks of the endpoint in a step, with its answer. -/
def World.exchangeOf? (world : World) (i : TaskId) (label : Label) : Option (Operation × Answer) :=
  if label.task? = some i then (world.exchange? label).map Prod.snd else none

theorem World.exchangeOf?_eq_none {world : World} {i : TaskId} {label : Label}
    (h : label.task? ≠ some i) : world.exchangeOf? i label = none := if_neg h

/-- What the endpoint was asked, in order. -/
def Log.exchanges (log : Log) : List (Option Subject × Operation × Answer) :=
  log.filterMap fun
    | .exchange subject? operation answer => some (subject?, operation, answer)
    | _ => none

theorem Log.exchanges_append {log events : Log} :
    (log ++ events).exchanges = log.exchanges ++ Log.exchanges events := List.filterMap_append

@[simp] theorem Log.exchanges_effects (effects : List Effect) :
    Log.exchanges (effects.map .effect) = [] :=
  List.filterMap_eq_nil_iff.mpr fun event hevent => by
    obtain ⟨effect, -, rfl⟩ := List.mem_map.mp hevent
    rfl

/-- **The exchanges of the log are what the endpoint was asked.** -/
theorem World.exchanges_step {world next : World} {label : Label}
    (h : world.step label = some next) :
    next.log.exchanges = world.log.exchanges ++ (world.exchange? label).toList := by
  cases label with
  | order order =>
    obtain ⟨machine, -, rfl⟩ := Option.map_eq_some_iff.mp h
    exact (List.append_nil _).symm
  | advance i =>
    obtain ⟨⟨machine, effects⟩, -, rfl⟩ := Option.map_eq_some_iff.mp h
    have hdecoding : Log.exchanges ((world.machine.decoding? i).toList.map .ofDecoding) = [] := by
      cases world.machine.decoding? i <;> rfl
    show Log.exchanges (world.log ++ ((world.machine.decoding? i).toList.map .ofDecoding ++
      effects.map .effect)) = world.log.exchanges ++ []
    rw [Log.exchanges_append, Log.exchanges_append, hdecoding, Log.exchanges_effects]
    rfl
  | expire i =>
    obtain ⟨⟨machine, effects⟩, -, rfl⟩ := Option.map_eq_some_iff.mp h
    show Log.exchanges (world.log ++ effects.map .effect) = world.log.exchanges ++ []
    rw [Log.exchanges_append, Log.exchanges_effects]
  | answer i answer =>
    obtain ⟨operation, hoperation, h⟩ := Option.bind_eq_some_iff.mp h
    obtain ⟨⟨machine, effects⟩, -, rfl⟩ := Option.map_eq_some_iff.mp h
    have hself : Log.exchanges
        (.exchange (world.machine.subject? i) operation answer :: effects.map .effect) =
        [(world.machine.subject? i, operation, answer)] :=
      congrArg ((world.machine.subject? i, operation, answer) :: ·) (Log.exchanges_effects effects)
    show Log.exchanges (world.log ++ (.exchange (world.machine.subject? i) operation answer ::
      effects.map .effect)) = _
    rw [Log.exchanges_append, hself, World.exchange?, hoperation]
    rfl

/-! ## 3. Calls -/

/-- How one entry of a list counts. -/
theorem countP_around {α : Type} {p : α → Bool} {before after : List α} (a : α) :
    (before ++ a :: after).countP p = (before ++ after).countP p + (p a).toNat := by
  rw [List.countP_append, List.countP_append, List.countP_cons, ← Nat.add_assoc]
  cases p a <;> rfl

/-- The call that a task executes or cancels. -/
def Task.call? : Task → Option Nat
  | .executing id _ | .cancelling id _ => some id
  | _ => none

/-- The connection that an execution has. -/
def CallStage.conn? : CallStage → Option ConnId
  | leased conn | registered conn | sending conn | receiving conn | exchanged conn _
  | withdrawn conn _ | releasing conn _ _ => some conn
  | entry | admitted | acquiring | connecting | settling _ | finished _ | abandoned => none

@[simp] theorem CallStage.conn?_grip (id : Nat) (stage : CallStage) :
    (stage.grip id).conn? = stage.conn? := by
  cases stage with
  | exchanged conn result | withdrawn conn result => cases result <;> rfl
  | releasing conn broken result => cases broken <;> rfl
  | _ => rfl

/-- Whether the execution has taken no step. -/
def CallStage.isEntry : CallStage → Bool
  | entry => true
  | _ => false

/-- Whether a task executes call `id`. -/
def Task.executes (id : Nat) : Task → Bool
  | .executing other _ => other == id
  | _ => false

/-- Whether a task executes call `id` and has taken a step. -/
def Task.hasBegun (id : Nat) : Task → Bool
  | .executing other stage => other == id && !stage.isEntry
  | _ => false

theorem Task.hasBegun_of_fresh {machine : Machine} {task : Task} (h : task.IsFresh machine)
    (id : Nat) : task.hasBegun id = false := by
  cases h with
  | executing => exact Bool.and_false _
  | _ => rfl

section

variable {machine machine' : Machine} {mover? : Option Task} {pool pool' : Pool} {call call' : Call}
  {stage stage' : CallStage} {log events : Log} {id : Nat}

/-- **A call changes only in a step of one of its tasks.** -/
theorem Step.call_cases (h : Step machine mover? machine' events)
    (hcall : machine.calls[id]? = some call) :
    ((∀ mover ∈ mover?, mover.call? ≠ some id) ∧ machine'.calls[id]? = some call) ∨
      (∃ stage stage' pool' call', mover? = some (.executing id stage) ∧
        CallMove id machine.pool call stage pool' call' stage' events ∧
        machine'.calls[id]? = some call') ∨
      ∃ stage stage' call', mover? = some (.cancelling id stage) ∧
        CancelMove call stage call' stage' events ∧ machine'.calls[id]? = some call' := by
  have hset : ∀ {other : Nat} {old new : Call}, machine.calls[other]? = some old →
      (other = id ∧ old = call ∧ (machine.calls.set other new)[id]? = some new) ∨
        (other ≠ id ∧ (machine.calls.set other new)[id]? = some call) := by
    intro other old new hother
    by_cases hself : other = id
    · subst hself
      cases hother.symm.trans hcall
      exact .inl ⟨rfl, rfl, List.getElem?_set_self (List.getElem?_eq_some_iff.mp hother).1⟩
    · exact .inr ⟨hself, by rw [List.getElem?_set_ne hself, hcall]⟩
  cases h with
  | newCall request decoder =>
    refine .inl ⟨by simp, ?_⟩
    rw [List.getElem?_append_left (List.getElem?_eq_some_iff.mp hcall).1, hcall]
  | executing htasks hfound hmove =>
    rcases hset hfound with ⟨rfl, rfl, hnew⟩ | ⟨hne, hsame⟩
    · exact .inr (.inl ⟨_, _, _, _, rfl, hmove, hnew⟩)
    · exact .inl ⟨by simpa [Task.call?] using hne, hsame⟩
  | cancelling htasks hfound hmove =>
    rcases hset hfound with ⟨rfl, rfl, hnew⟩ | ⟨hne, hsame⟩
    · exact .inr (.inr ⟨_, _, _, rfl, hmove, hnew⟩)
    · exact .inl ⟨by simpa [Task.call?] using hne, hsame⟩
  | _ => exact .inl ⟨by simp [Task.call?], hcall⟩

/-- A new call has no task. -/
theorem Step.new_call (h : Step machine mover? machine' events) (hid : machine.calls.length ≤ id)
    (hcall' : machine'.calls[id]? = some call') :
    mover? = none ∧ machine'.tasks = machine.tasks ∧
      ∃ request decoder, call' = .new request decoder := by
  have hlt := (List.getElem?_eq_some_iff.mp hcall').1
  cases h with
  | newCall request decoder =>
    rcases getElem?_of_append_singleton hcall' with hcall | ⟨-, rfl⟩
    · have := (List.getElem?_eq_some_iff.mp hcall).1
      omega
    · exact ⟨rfl, rfl, request, decoder, rfl⟩
  | executing | cancelling =>
    simp only [List.length_set] at hlt
    omega
  | _ => exact absurd hlt (Nat.not_lt.mpr hid)

theorem Step.mover_mem {mover : Task} (h : Step machine (some mover) machine' events) :
    mover ∈ machine.tasks := by
  cases h with
  | executing htasks | cancelling htasks | collecting htasks | working htasks | stopping htasks =>
    exact htasks ▸ mem_around.mpr (.inr rfl)

/-- A task that does not move stays. -/
theorem Step.mem_tasks {task : Task} (h : Step machine mover? machine' events)
    (htask : task ∈ machine.tasks) : task ∈ machine'.tasks ∨ mover? = some task := by
  cases h with
  | newCall | newBatch | addItem => exact .inl htask
  | spawn | enqueue | poll => exact .inl (List.mem_append_left _ htask)
  | executing htasks | cancelling htasks | working htasks | stopping htasks =>
    rcases mem_around.mp (htasks ▸ htask) with hmem | rfl
    · exact .inl (mem_around.mpr (.inl hmem))
    · exact .inr rfl
  | collecting htasks =>
    rcases mem_around.mp (htasks ▸ htask) with hmem | rfl
    · exact .inl (List.mem_append_left _ (mem_around.mpr (.inl hmem)))
    · exact .inr rfl

/-- No step leads back to the entry. -/
theorem CallMove.isEntry (h : CallMove id pool call stage pool' call' stage' events) :
    stage'.isEntry = false := by
  cases h <;> rfl

/-- An execution marks its call when it begins, and no other step touches the mark. -/
theorem CallMove.executed (h : CallMove id pool call stage pool' call' stage' events) :
    call'.executed = (call.executed || stage.isEntry) := by
  cases h with
  | refused | admitted => simp [CallStage.isEntry, *]
  | panicked hholding =>
    cases stage with
    | entry => cases hholding
    | _ => exact (Bool.or_false _).symm
  | _ => exact (Bool.or_false _).symm

theorem CancelMove.executed {stage stage' : CancelStage}
    (h : CancelMove call stage call' stage' events) : call'.executed = call.executed := by
  cases h <;> rfl

/-- An execution has begun after its first step. -/
theorem Step.hasBegun_eq (h : Step machine mover? machine' events) :
    machine'.tasks.any (Task.hasBegun id) =
      (machine.tasks.any (Task.hasBegun id) || mover?.any (Task.executes id)) := by
  cases h with
  | newCall | newBatch | addItem => simp
  | spawn hfresh => simp [Task.hasBegun_of_fresh hfresh]
  | enqueue | poll => simp [Task.hasBegun]
  | @executing before after other stage stage' call call' pool' events htasks hfound hmove =>
    simp only [htasks, List.any_append, List.any_cons, Task.hasBegun, hmove.isEntry,
      Option.any_some, Task.executes, Bool.not_false, Bool.and_true]
    cases other == id <;> simp
  | cancelling htasks hfound hmove => simp [htasks, Task.hasBegun, Task.executes]
  | collecting htasks hfound hmove => simp [htasks, Task.hasBegun, Task.executes]
  | working htasks hfound hmove => simp [htasks, Task.hasBegun, Task.executes]
  | stopping htasks hfound hmove => simp [htasks, Task.hasBegun, Task.executes]

/-- The tasks of calls belong to calls that there are, and a call is marked as executed exactly if
an execution of it has begun. -/
structure Machine.Marked (machine : Machine) : Prop where
  known : ∀ task ∈ machine.tasks, ∀ id, task.call? = some id → id < machine.calls.length
  marked : ∀ (id : Nat) call, machine.calls[id]? = some call →
    call.executed = machine.tasks.any (Task.hasBegun id)

/-- A task whose call is not there has no business here. -/
theorem Machine.Marked.untouched (h : machine.Marked) (hid : machine.calls.length ≤ id) :
    ∀ task ∈ machine.tasks, task.call? ≠ some id := by
  intro task htask hcall
  have := h.known task htask id hcall
  omega

theorem Step.calls_length_le (h : Step machine mover? machine' events) :
    machine.calls.length ≤ machine'.calls.length := by
  cases h with
  | newCall => simp
  | executing | cancelling => simp
  | _ => exact Nat.le_refl _

theorem Machine.Marked.known_step (hmarked : machine.Marked)
    (h : Step machine mover? machine' events) :
    ∀ task ∈ machine'.tasks, ∀ id, task.call? = some id → id < machine'.calls.length := by
  have hlength := h.calls_length_le
  intro task htask id hcall
  have hold : task ∈ machine.tasks → id < machine'.calls.length :=
    fun hmem => Nat.lt_of_lt_of_le (hmarked.known task hmem id hcall) hlength
  cases h with
  | newCall | newBatch | addItem => exact hold htask
  | spawn hfresh =>
    rcases List.mem_append.mp htask with hmem | hself
    · exact hold hmem
    · cases List.mem_singleton.mp hself
      cases hfresh with
      | executing hknown | cancelling hknown =>
        cases hcall
        exact hknown
      | _ => cases hcall
  | enqueue | poll =>
    rcases List.mem_append.mp htask with hmem | hself
    · exact hold hmem
    · cases List.mem_singleton.mp hself
      cases hcall
  | executing htasks hfound | cancelling htasks hfound =>
    rcases mem_around.mp htask with hmem | rfl
    · exact hold (htasks ▸ mem_around.mpr (.inl hmem))
    · cases hcall
      exact Nat.lt_of_lt_of_le (List.getElem?_eq_some_iff.mp hfound).1 hlength
  | working htasks | stopping htasks =>
    rcases mem_around.mp htask with hmem | rfl
    · exact hold (htasks ▸ mem_around.mpr (.inl hmem))
    · cases hcall
  | collecting htasks =>
    rcases List.mem_append.mp htask with hmem | hhired
    · rcases mem_around.mp hmem with hmem | rfl
      · exact hold (htasks ▸ mem_around.mpr (.inl hmem))
      · cases hcall
    · rw [(List.mem_replicate.mp hhired).2] at hcall
      cases hcall

theorem Task.executes_eq_false {task : Task} (h : task.call? ≠ some id) :
    task.executes id = false := by
  cases task with
  | executing other stage => simpa [executes, call?] using h
  | _ => rfl

theorem Task.hasBegun_eq_false {task : Task} (h : task.call? ≠ some id) :
    task.hasBegun id = false := by
  cases task with
  | executing other stage =>
    have hne : (other == id) = false := by simpa [call?] using h
    rw [hasBegun, hne, Bool.false_and]
  | _ => rfl

theorem Machine.Marked.step (hmarked : machine.Marked) (h : Step machine mover? machine' events) :
    machine'.Marked := by
  refine ⟨hmarked.known_step h, fun id call' hcall' => ?_⟩
  rw [h.hasBegun_eq]
  rcases Nat.lt_or_ge id machine.calls.length with hid | hid
  · have hcall := List.getElem?_eq_getElem hid
    have hold := hmarked.marked id _ hcall
    rcases h.call_cases hcall with ⟨hmover, hsame⟩ | ⟨stage, _, _, _, rfl, hmove, hnew⟩ |
      ⟨stage, _, _, rfl, hmove, hnew⟩
    · cases hsame.symm.trans hcall'
      have hother : mover?.any (Task.executes id) = false := by
        cases mover? with
        | none => rfl
        | some mover => exact Task.executes_eq_false (hmover mover rfl)
      rw [← hold, hother, Bool.or_false]
    · cases hnew.symm.trans hcall'
      have hself : (Task.executing id stage).executes id = true := beq_self_eq_true id
      rw [hmove.executed, Option.any_some, hself, Bool.or_true]
      cases hentry : stage.isEntry with
      | true => exact Bool.or_true _
      | false =>
        have hbegun : (Task.executing id stage).hasBegun id = true := by
          simp [Task.hasBegun, hentry]
        rw [hold, List.any_eq_true.mpr ⟨_, h.mover_mem, hbegun⟩, Bool.true_or]
    · cases hnew.symm.trans hcall'
      rw [hmove.executed, ← hold]
      exact (Bool.or_false _).symm
  · obtain ⟨rfl, -, request, decoder, rfl⟩ := h.new_call hid hcall'
    have hnone : machine.tasks.any (Task.hasBegun id) = false :=
      List.any_eq_false.mpr fun task htask =>
        Bool.eq_false_iff.mp (Task.hasBegun_eq_false (hmarked.untouched hid task htask))
    rw [hnone]
    rfl

end

/-- **A call is marked as executed exactly if an execution of it has begun.** -/
theorem World.Reachable.marked {config : Config} {world : World} (h : Reachable config world) :
    world.machine.Marked :=
  @Reachable.induct config (fun machine _ => machine.Marked)
    ⟨fun _ hmem => absurd hmem List.not_mem_nil,
      fun _ _ hcall => absurd hcall (by simp [Machine.new])⟩
    (fun _ hmarked hstep => hmarked.step hstep) world h

/-- A client keeps its configuration. -/
theorem World.Reachable.config_eq {config : Config} {world : World} (h : Reachable config world) :
    world.machine.config = config := by
  refine @Reachable.induct config (fun machine _ => machine.config = config) rfl
    (fun {machine mover? machine' log events} _ hconfig hstep => ?_) world h
  cases hstep <;> exact hconfig

/-- A client keeps the limit of its pool. -/
theorem World.Reachable.limit_eq {config : Config} {world : World} (h : Reachable config world) :
    world.machine.pool.limit = max config.maxConnections 1 := by
  refine @Reachable.induct config (fun machine _ => machine.pool.limit = max config.maxConnections 1)
    rfl (fun {machine mover? machine' log events} _ hlimit hstep => ?_) world h
  cases hstep with
  | executing _ _ hmove => exact hmove.handling.limit_eq.trans hlimit
  | working _ _ hmove => exact hmove.handling.limit_eq.trans hlimit
  | _ => exact hlimit

/-- If a batch may have a worker at all, the pool allows for one. -/
theorem World.Reachable.workerLimit_pos {config : Config} {world : World}
    (h : Reachable config world) (hlimit : 1 ≤ config.batchConnections) :
    0 < world.machine.workerLimit := by
  rw [Machine.workerLimit, h.config_eq, h.limit_eq]
  exact Nat.lt_min.mpr ⟨hlimit, Nat.le_max_right _ _⟩

/-! ## 4. Moments of a run -/

namespace Run

variable {config : Config} (run : Run config)

/-- At a moment the client rests or takes a step. -/
theorem next (n : Nat) : (run.label? n = none ∧ run.world (n + 1) = run.world n) ∨
    ∃ label, run.label? n = some label ∧ (run.world n).step label = some (run.world (n + 1)) := by
  have hgoes := run.goes n
  cases hlabel : run.label? n with
  | none =>
    rw [hlabel] at hgoes
    exact .inl ⟨rfl, hgoes⟩
  | some label =>
    rw [hlabel] at hgoes
    exact .inr ⟨label, rfl, hgoes⟩

/-- The place of the task that takes a step at a moment. -/
def place? (n : Nat) : Option TaskId := (run.label? n).bind Label.task?

/-- The task that takes a step at a moment. -/
def mover? (n : Nat) : Option Task := (run.place? n).bind ((run.world n).machine.tasks[·]?)

/-- What is logged at a moment. -/
def events (n : Nat) : Log := (run.world (n + 1)).log.drop (run.world n).log.length

/-- At a moment the client rests or its task takes a step. -/
theorem moves (n : Nat) : (run.mover? n = none ∧ run.world (n + 1) = run.world n) ∨
    (Step (run.world n).machine (run.mover? n) (run.world (n + 1)).machine (run.events n) ∧
      (run.world (n + 1)).log = (run.world n).log ++ run.events n) := by
  unfold mover? place?
  rcases run.next n with ⟨hrests, hsame⟩ | ⟨label, hlabel, htaken⟩
  · rw [hrests]
    exact .inl ⟨rfl, hsame⟩
  · obtain ⟨events, hstep, hlog⟩ := World.step_ok htaken
    have hevents : run.events n = events := by
      rw [Run.events, hlog, List.drop_left]
    rw [hlabel, hevents]
    exact .inr ⟨hstep, hlog⟩

/-- **What holds at a moment and is kept by every step holds at every later moment.** -/
theorem later {motive : World → Prop} {n m : Nat} (hnm : n ≤ m) (hfirst : motive (run.world n))
    (hstep : ∀ {world next : World} {label : Label}, World.Reachable config world → motive world →
      world.step label = some next → motive next) : motive (run.world m) := by
  induction hnm with
  | refl => exact hfirst
  | @step m _ ih =>
    rcases run.next m with ⟨-, hsame⟩ | ⟨label, -, htaken⟩
    · rw [hsame]
      exact ih
    · exact hstep (run.reachable m) ih htaken

/-- What the endpoint is asked by a task in `k` moments from moment `n` on, with its answers. -/
def operations (i : TaskId) (n k : Nat) : List (Operation × Answer) :=
  (List.range' n k).filterMap fun m => (run.label? m).bind ((run.world m).exchangeOf? i)

variable (i : TaskId) (n k : Nat)

theorem operations_succ : run.operations i n (k + 1) = run.operations i n k ++
    ((run.label? (n + k)).bind ((run.world (n + k)).exchangeOf? i)).toList := by
  unfold operations
  rw [List.range'_1_concat, List.filterMap_append, List.filterMap_cons, List.filterMap_nil]
  cases (run.label? (n + k)).bind _ <;> rfl

end Run

end RemoteCall.Client
