/-
# The team of a batch

What concerns one batch is the batch itself, the collector that leads it and its workers: its
`Team`.  A step of a client is a step of the team or does not concern it (`Step.teamMove`, with a
lemma for each kind of task), so whatever is to be said about one batch can be proved for its team,
whoever else uses the client.

A collector that finds its batch started already never leads; that a batch has one leader at most is
proved with the invariants of the team.
-/
import RemoteCall.Proofs.Client.Step

namespace RemoteCall.Client

/-! ## 1. Teams -/

/-- Whether a collector has taken its batch over. -/
def Collector.leads (collector : Collector) : Bool :=
  match collector.stage with
  | .entry | .finished (.error _) => false
  | _ => true

/-- The collector that leads batch `id`, if the task is one. -/
def Task.lead? (id : Nat) : Task → Option Collector
  | collecting batch collector =>
    if batch = id ∧ collector.leads = true then some collector else none
  | _ => none

/-- The worker of batch `id`, if the task is one. -/
def Task.worker? (id : Nat) : Task → Option WorkerStage
  | working batch stage => if batch = id then some stage else none
  | _ => none

/-- Whether a task serves batch `id`: as its leader or as one of its workers. -/
def Task.serves (id : Nat) (task : Task) : Bool :=
  (task.lead? id).isSome || (task.worker? id).isSome

/-- How workers stand together. -/
def Crew.of (workers : List WorkerStage) : Crew :=
  if workers.all (·.isOver) then
    if workers.any (·.isAbandoned) then .panicked else .ended
  else
    .working

/-- A batch with those who work for it. -/
structure Team where
  batch : Batch
  leads : List Collector
  workers : List WorkerStage
  deriving Repr

/-- How operations for the items of a batch were answered.  A panic is no answer. -/
def Log.answered (log : Log) (id : Nat) : List (Operation × Answer) :=
  log.filterMap fun
    | .exchange (some (.item _ _)) _ .panicked => none
    | .exchange (some (.item batch _)) operation answer =>
      if batch = id then some (operation, answer) else none
    | _ => none

/-- A step of the team of batch `id`, with what happens; `serving` tells whether it is one of the
leader or of a worker.  `limit` is the number of workers that may be started, `depth` the length of
a chunk, `timeoutMs` the limit of the wait for a connection. -/
inductive TeamMove (id limit depth timeoutMs : Nat) (team : Team) :
    (serving : Bool) → Team → Log → Prop
  | grow {item : BatchItem} (allowed : team.batch.addFault? item.key = none) :
    TeamMove id limit depth timeoutMs team false { team with batch := team.batch.add item } []
  | start (before after : List Collector) (unstarted : team.batch.started = false)
    (leads_eq : team.leads = before ++ after) :
    TeamMove id limit depth timeoutMs team false
      ⟨{ team.batch with started := true }, before ++ .launched :: after, team.workers⟩ []
  | lead {before after : List Collector} {collector collector' : Collector} {batch' : Batch}
    {hired : Nat} {events : Log} (leads_eq : team.leads = before ++ collector :: after)
    (leading : collector.leads = true)
    (move : CollectorMove id limit (Crew.of team.workers) team.batch collector batch' collector'
      hired events) :
    TeamMove id limit depth timeoutMs team true
      ⟨batch', before ++ collector' :: after, team.workers ++ List.replicate hired .acquiring⟩
      events
  | work {before after : List WorkerStage} {stage stage' : WorkerStage} {pool pool' : Pool}
    {batch' : Batch} {events : Log} (workers_eq : team.workers = before ++ stage :: after)
    (move : WorkerMove id depth timeoutMs pool team.batch stage pool' batch' stage' events) :
    TeamMove id limit depth timeoutMs team true ⟨batch', team.leads, before ++ stage' :: after⟩
      events
  | stop {stage stage' : StopStage} {batch' : Batch} {events : Log}
    (move : StopMove team.batch stage batch' stage' events) :
    TeamMove id limit depth timeoutMs team false { team with batch := batch' } events

namespace Machine

/-- The collectors that lead a batch. -/
def leads (machine : Machine) (id : Nat) : List Collector := machine.tasks.filterMap (Task.lead? id)

theorem workers_eq (machine : Machine) (id : Nat) :
    machine.workers id = machine.tasks.filterMap (Task.worker? id) := by
  unfold workers
  congr 1

/-- The team of a batch. -/
def team? (machine : Machine) (id : Nat) : Option Team :=
  machine.batches[id]?.map fun batch => ⟨batch, machine.leads id, machine.workers id⟩

end Machine

/-! ## 2. What a move tells, and what is answered in it -/

theorem callbacks_giveBackEvents {pool : Pool} {conn : ConnId} {broken : Bool} {id : Nat} :
    Log.callbacks (pool.giveBackEvents conn broken) id = [] := by
  cases broken <;> rfl

theorem CallMove.callbacks_eq {id other : Nat} {pool pool' : Pool} {call call' : Call}
    {stage stage' : CallStage} {events : List Event}
    (h : CallMove id pool call stage pool' call' stage' events) :
    Log.callbacks events other = [] := by
  cases h with
  | panicked => exact callbacks_giveBackEvents
  | released => exact callbacks_giveBackEvents
  | _ => rfl

theorem WorkerMove.callbacks_eq {id other depth timeoutMs : Nat} {pool pool' : Pool}
    {batch batch' : Batch} {stage stage' : WorkerStage} {events : List Event}
    (h : WorkerMove id depth timeoutMs pool batch stage pool' batch' stage' events) :
    Log.callbacks events other = [] := by
  cases h with
  | panicked => exact callbacks_giveBackEvents
  | released => exact callbacks_giveBackEvents
  | _ => rfl

theorem CollectorMove.callbacks_eq {id other limit hired : Nat} {crew : Crew}
    {batch batch' : Batch} {collector collector' : Collector} {events : List Event}
    (hother : id ≠ other)
    (h : CollectorMove id limit crew batch collector batch' collector' hired events) :
    Log.callbacks events other = [] := by
  cases h with
  | delivered => simp [Log.callbacks, hother]
  | concluded => simp [Log.callbacks, hother]
  | _ => rfl

theorem StopMove.callbacks_eq {id : Nat} {batch batch' : Batch} {stage stage' : StopStage}
    {events : List Event} (h : StopMove batch stage batch' stage' events) :
    Log.callbacks events id = [] := by
  cases h <;> rfl

theorem answered_giveBackEvents {pool : Pool} {conn : ConnId} {broken : Bool} {id : Nat} :
    Log.answered (pool.giveBackEvents conn broken) id = [] := by
  cases broken <;> rfl

theorem CallMove.answered_eq {id other : Nat} {pool pool' : Pool} {call call' : Call}
    {stage stage' : CallStage} {events : List Event}
    (h : CallMove id pool call stage pool' call' stage' events) :
    Log.answered events other = [] := by
  cases h with
  | panicked => exact answered_giveBackEvents
  | released => exact answered_giveBackEvents
  | _ => rfl

theorem WorkerMove.answered_eq {id other depth timeoutMs : Nat} {pool pool' : Pool}
    {batch batch' : Batch} {stage stage' : WorkerStage} {events : List Event} (hother : id ≠ other)
    (h : WorkerMove id depth timeoutMs pool batch stage pool' batch' stage' events) :
    Log.answered events other = [] := by
  cases h with
  | sent | sendFailed | received | receiveFailed => simp [Log.answered, hother]
  | @panicked stage conn operation subject =>
    cases subject <;> exact answered_giveBackEvents
  | released => exact answered_giveBackEvents
  | _ => rfl

/-- No operation is answered in a step of a collector. -/
theorem CollectorMove.answered_eq {id other limit hired : Nat} {crew : Crew}
    {batch batch' : Batch} {collector collector' : Collector} {events : List Event}
    (h : CollectorMove id limit crew batch collector batch' collector' hired events) :
    Log.answered events other = [] := by
  cases h <;> rfl

theorem StopMove.answered_eq {id : Nat} {batch batch' : Batch} {stage stage' : StopStage}
    {events : List Event} (h : StopMove batch stage batch' stage' events) :
    Log.answered events id = [] := by
  cases h <;> rfl

/-- A collector that leads goes on leading. -/
theorem CollectorMove.leads {id limit hired : Nat} {crew : Crew} {batch batch' : Batch}
    {collector collector' : Collector} {events : List Event}
    (h : CollectorMove id limit crew batch collector batch' collector' hired events)
    (hleads : collector.leads = true) : collector'.leads = true := by
  cases h with
  | refused => cases hleads
  | started => cases hleads
  | delivered =>
    rename_i delivery completed errors
    cases delivery <;> rfl
  | _ => rfl

/-! ## 3. What tasks refer to -/

/-- The task works on one of `count` batches, and if it is a collector that has done nothing, it is
new. -/
def Task.IsTidy (count : Nat) : Task → Prop
  | collecting id collector => id < count ∧ (collector.stage = .entry → collector = .new)
  | working id _ | stopping id _ => id < count
  | executing _ _ | cancelling _ _ => True

/-- Every task is tidy. -/
def Machine.Tidy (machine : Machine) : Prop :=
  ∀ task ∈ machine.tasks, task.IsTidy machine.batches.length

theorem Task.IsTidy.mono {count count' : Nat} {task : Task} (h : task.IsTidy count)
    (hcount : count ≤ count') : task.IsTidy count' := by
  cases task with
  | executing id stage => trivial
  | cancelling id stage => trivial
  | collecting id collector => exact ⟨Nat.lt_of_lt_of_le h.1 hcount, h.2⟩
  | working id stage => exact Nat.lt_of_lt_of_le h hcount
  | stopping id stage => exact Nat.lt_of_lt_of_le h hcount

theorem CollectorMove.not_entry {id limit hired : Nat} {crew : Crew} {batch batch' : Batch}
    {collector collector' : Collector} {events : List Event}
    (h : CollectorMove id limit crew batch collector batch' collector' hired events) :
    collector'.stage ≠ .entry := by
  cases h with
  | @delivered delivery => cases delivery <;> exact nofun
  | _ => exact nofun

/-- A step replaces or adds tasks that are tidy. -/
theorem Machine.Tidy.step {machine machine' : Machine} {mover? : Option Task} {events : List Event}
    (htidy : machine.Tidy) (h : Step machine mover? machine' events) : machine'.Tidy := by
  unfold Machine.Tidy at htidy
  cases h with
  | newCall request decoder => exact htidy
  | newBatch hknown =>
    intro task htask
    exact (htidy task htask).mono (by simp)
  | addItem hfound hallowed =>
    intro task htask
    rw [List.length_set]
    exact htidy task htask
  | spawn hfresh =>
    refine List.forall_mem_append.mpr ⟨htidy, List.forall_mem_singleton.mpr ?_⟩
    cases hfresh with
    | executing hknown => trivial
    | cancelling hknown => trivial
    | collecting hknown => exact ⟨hknown, fun _ => rfl⟩
    | stopping hknown => exact hknown
  | enqueue hfound hunstarted =>
    unfold Machine.Tidy
    rw [List.length_set]
    refine List.forall_mem_append.mpr ⟨htidy, List.forall_mem_singleton.mpr ?_⟩
    exact ⟨(List.getElem?_eq_some_iff.mp hfound).1, nofun⟩
  | poll hfound =>
    unfold Machine.Tidy
    rw [List.length_append]
    refine List.forall_mem_append.mpr ⟨fun task htask => ?_, List.forall_mem_singleton.mpr ?_⟩
    · exact (htidy task htask).mono (Nat.le_add_right _ _)
    · exact ⟨Nat.lt_succ_self _, nofun⟩
  | executing htasks hfound hmove =>
    rw [htasks, List.forall_mem_append, List.forall_mem_cons] at htidy
    exact List.forall_mem_append.mpr ⟨htidy.1, List.forall_mem_cons.mpr ⟨trivial, htidy.2.2⟩⟩
  | cancelling htasks hfound hmove =>
    rw [htasks, List.forall_mem_append, List.forall_mem_cons] at htidy
    exact List.forall_mem_append.mpr ⟨htidy.1, List.forall_mem_cons.mpr ⟨trivial, htidy.2.2⟩⟩
  | collecting htasks hfound hmove =>
    rw [htasks, List.forall_mem_append, List.forall_mem_cons] at htidy
    obtain ⟨hbefore, hself, hafter⟩ := htidy
    unfold Machine.Tidy
    rw [List.length_set, List.append_assoc, List.cons_append]
    refine List.forall_mem_append.mpr ⟨hbefore, List.forall_mem_cons.mpr ⟨?_, ?_⟩⟩
    · exact ⟨hself.1, fun h => absurd h hmove.not_entry⟩
    · refine List.forall_mem_append.mpr ⟨hafter, fun task htask => ?_⟩
      rw [(List.mem_replicate.mp htask).2]
      exact hself.1
  | working htasks hfound hmove =>
    rw [htasks, List.forall_mem_append, List.forall_mem_cons] at htidy
    unfold Machine.Tidy
    rw [List.length_set]
    exact List.forall_mem_append.mpr ⟨htidy.1, List.forall_mem_cons.mpr htidy.2⟩
  | stopping htasks hfound hmove =>
    rw [htasks, List.forall_mem_append, List.forall_mem_cons] at htidy
    unfold Machine.Tidy
    rw [List.length_set]
    exact List.forall_mem_append.mpr ⟨htidy.1, List.forall_mem_cons.mpr htidy.2⟩

/-! ## 4. Steps of a client as steps of a team -/

section

variable {machine : Machine} {id other : Nat} {batch : Batch} {collector : Collector}
  {stage : WorkerStage}

theorem Task.lead?_of_leads (h : collector.leads = true) :
    (Task.collecting id collector).lead? id = some collector := if_pos ⟨rfl, h⟩

theorem Task.lead?_of_not_leads (h : collector.leads = false) :
    (Task.collecting other collector).lead? id = none := if_neg (by simp [h])

theorem Task.lead?_of_ne (h : other ≠ id) : (Task.collecting other collector).lead? id = none :=
  if_neg (by simp [h])

theorem Task.worker?_self : (Task.working id stage).worker? id = some stage := if_pos rfl

theorem Task.worker?_of_ne (h : other ≠ id) : (Task.working other stage).worker? id = none :=
  if_neg h

theorem Task.eq_collecting {task : Task} (h : task.lead? id = some collector) :
    task = .collecting id collector := by
  cases task with
  | collecting other collector' =>
    simp only [lead?] at h
    split at h
    · rename_i hself
      rw [hself.1, Option.some.inj h]
    · cases h
  | _ => cases h

theorem Task.eq_working {task : Task} (h : task.worker? id = some stage) :
    task = .working id stage := by
  cases task with
  | working other stage' =>
    simp only [worker?] at h
    split at h
    · rename_i hself
      rw [hself, Option.some.inj h]
    · cases h
  | _ => cases h

theorem Task.serves_of_lead? {task : Task} (h : task.lead? id = some collector) :
    task.serves id = true := by
  unfold serves
  rw [h]
  rfl

theorem Task.serves_of_worker? {task : Task} (h : task.worker? id = some stage) :
    task.serves id = true := by
  unfold serves
  rw [h, Option.isSome_some, Bool.or_true]

theorem Task.not_serves {task : Task} (hlead : task.lead? id = none)
    (hworker : task.worker? id = none) : task.serves id = false := by
  unfold serves
  rw [hlead, hworker]
  rfl

/-- The team of a client that has changed. -/
theorem Machine.team?_eq (hbatch : machine.batches[id]? = some batch) :
    machine.team? id = some ⟨batch, machine.tasks.filterMap (Task.lead? id),
      machine.tasks.filterMap (Task.worker? id)⟩ := by
  unfold team?
  rw [hbatch, workers_eq]
  rfl

theorem getElem?_set_or {α : Type} {list : List α} {i j : Nat} {a b : α}
    (h : list[i]? = some a) : (list.set j b)[i]? = some (if j = i then b else a) := by
  rw [List.getElem?_set]
  by_cases hij : j = i
  · have hi := (List.getElem?_eq_some_iff.mp h).1
    rw [if_pos hij, if_pos hij, if_pos (hij ▸ hi)]
  · rw [if_neg hij, if_neg hij, h]

theorem getElem?_of_set {α : Type} {list : List α} {i j : Nat} {a b : α}
    (h : (list.set j b)[i]? = some a) : (j = i ∧ a = b) ∨ list[i]? = some a := by
  rw [List.getElem?_set] at h
  split at h
  · split at h
    · exact .inl ⟨‹_›, (Option.some.inj h).symm⟩
    · cases h
  · exact .inr h

theorem mem_around {α : Type} {before after : List α} {a b : α} :
    b ∈ before ++ a :: after ↔ b ∈ before ++ after ∨ b = a := by
  rw [List.mem_append, List.mem_append, List.mem_cons, or_left_comm, or_comm]

theorem getElem?_of_append_singleton {α : Type} {list : List α} {i : Nat} {a b : α}
    (h : (list ++ [b])[i]? = some a) : list[i]? = some a ∨ (i = list.length ∧ a = b) := by
  rcases Nat.lt_trichotomy i list.length with hlt | rfl | hgt
  · rw [List.getElem?_append_left hlt] at h
    exact .inl h
  · rw [List.getElem?_concat_length] at h
    exact .inr ⟨rfl, (Option.some.inj h).symm⟩
  · rw [List.getElem?_eq_none (by rw [List.length_append]; exact hgt)] at h
    cases h

theorem filterMap_around_some {α β : Type} {f : α → Option β} {before after : List α} {a : α}
    {b : β} (h : f a = some b) :
    (before ++ a :: after).filterMap f = before.filterMap f ++ b :: after.filterMap f := by
  rw [List.filterMap_append, List.filterMap_cons_some h]

theorem filterMap_around_none {α β : Type} {f : α → Option β} {before after : List α} {a : α}
    (h : f a = none) : (before ++ a :: after).filterMap f = (before ++ after).filterMap f := by
  rw [List.filterMap_append, List.filterMap_cons_none h, List.filterMap_append]

theorem filterMap_replaced {α β : Type} {f : α → Option β} {list before after : List α} {a b : α}
    (hlist : list = before ++ a :: after) (ha : f a = none) (hb : f b = none) :
    (before ++ b :: after).filterMap f = list.filterMap f := by
  rw [hlist, filterMap_around_none hb, filterMap_around_none ha]

/-- The team of a batch among tasks. -/
abbrev Team.among (id : Nat) (batch : Batch) (tasks : List Task) : Team :=
  ⟨batch, tasks.filterMap (Task.lead? id), tasks.filterMap (Task.worker? id)⟩

/-- What a step of a client comes to for a team: the team stays as it is, nobody who serves the
batch moves and nothing is told or answered, or it takes a step. -/
def Team.Fares (machine : Machine) (id : Nat) (team : Team) (mover? : Option Task) (events : Log)
    (team' : Team) : Prop :=
  (team' = team ∧ events.callbacks id = [] ∧ events.answered id = [] ∧
      mover?.any (Task.serves id) = false) ∨
    TeamMove id machine.workerLimit machine.depth machine.config.acquireTimeoutMs team
      (mover?.any (Task.serves id)) team' events

section

variable {before after : List Task} {batch' : Batch} {events : Log}

/-- A task that does not serve the batch, before its step or after it. -/
theorem Team.fares_aside {task task' : Task} (htasks : machine.tasks = before ++ task :: after)
    (hlead : task.lead? id = none ∧ task'.lead? id = none)
    (hworker : task.worker? id = none ∧ task'.worker? id = none)
    (huntold : events.callbacks id = []) (hunanswered : events.answered id = []) :
    Team.Fares machine id (.among id batch machine.tasks) (some task) events
      (.among id batch (before ++ task' :: after)) := by
  refine .inl ⟨?_, huntold, hunanswered, Task.not_serves hlead.1 hworker.1⟩
  rw [Team.among, filterMap_replaced htasks hlead.1 hlead.2,
    filterMap_replaced htasks hworker.1 hworker.2]

/-- The workers that a collector hires, among tasks. -/
theorem Team.among_hired (tasks : List Task) (hired : Nat) :
    Team.among id batch (tasks ++ List.replicate hired (.working id .acquiring)) =
      ⟨batch, tasks.filterMap (Task.lead? id),
        tasks.filterMap (Task.worker? id) ++ List.replicate hired .acquiring⟩ := by
  rw [Team.among, List.filterMap_append, List.filterMap_append,
    List.filterMap_replicate_of_none rfl, List.append_nil,
    List.filterMap_replicate_of_some Task.worker?_self]

/-- The workers that a collector hires for another batch. -/
theorem Team.among_hired_other (hother : other ≠ id) (tasks : List Task) (hired : Nat) :
    Team.among id batch (tasks ++ List.replicate hired (.working other .acquiring)) =
      .among id batch tasks := by
  rw [Team.among, List.filterMap_append, List.filterMap_append,
    List.filterMap_replicate_of_none rfl, List.append_nil,
    List.filterMap_replicate_of_none (Task.worker?_of_ne hother), List.append_nil]

section

variable {collector' : Collector} {hired : Nat}

/-- A collector that leads the batch. -/
theorem CollectorMove.fares_leading
    (htasks : machine.tasks = before ++ .collecting id collector :: after)
    (hleads : collector.leads = true)
    (hmove : CollectorMove id machine.workerLimit (machine.crew id) batch collector batch'
      collector' hired events) :
    Team.Fares machine id (.among id batch machine.tasks) (some (.collecting id collector)) events
      (.among id batch' (before ++ .collecting id collector' :: after ++
        List.replicate hired (.working id .acquiring))) := by
  have hlead : (Task.collecting id collector).lead? id = some collector :=
    Task.lead?_of_leads hleads
  have hworkers := filterMap_replaced (f := Task.worker? id) htasks rfl
    (show (Task.collecting id collector').worker? id = none from rfl)
  have hcrew : machine.crew id = Crew.of (machine.tasks.filterMap (Task.worker? id)) := by
    rw [← Machine.workers_eq]
    rfl
  rw [hcrew] at hmove
  unfold Team.Fares
  rw [Team.among_hired, hworkers, filterMap_around_some (Task.lead?_of_leads (hmove.leads hleads)),
    Option.any_some, Task.serves_of_lead? hlead]
  refine .inr (.lead ?_ hleads hmove)
  show machine.tasks.filterMap (Task.lead? id) = _
  rw [htasks, filterMap_around_some hlead]

/-- A collector that does not lead the batch: it takes it over or finds it started. -/
theorem CollectorMove.fares_unleading (htidy : machine.Tidy)
    (htasks : machine.tasks = before ++ .collecting id collector :: after)
    (hleads : collector.leads = false)
    (hmove : CollectorMove id machine.workerLimit (machine.crew id) batch collector batch'
      collector' hired events) :
    Team.Fares machine id (.among id batch machine.tasks) (some (.collecting id collector)) events
      (.among id batch' (before ++ .collecting id collector' :: after ++
        List.replicate hired (.working id .acquiring))) := by
  have hlead : (Task.collecting id collector).lead? id = none := Task.lead?_of_not_leads hleads
  cases hmove with
  | refused hstarted =>
    rw [List.replicate_zero, List.append_nil]
    exact Team.fares_aside htasks ⟨hlead, Task.lead?_of_not_leads rfl⟩ ⟨rfl, rfl⟩ rfl rfl
  | started hunstarted =>
    have hself := htidy _ (htasks ▸ List.mem_append_right _ (List.mem_cons_self ..))
    cases hself.2 rfl
    unfold Team.Fares
    rw [List.replicate_zero, List.append_nil, Team.among,
      filterMap_replaced (f := Task.worker? id) htasks rfl rfl,
      filterMap_around_some (Task.lead?_of_leads rfl), Option.any_some, Task.not_serves hlead rfl]
    refine .inr (.start _ _ hunstarted ?_)
    show machine.tasks.filterMap (Task.lead? id) = _
    rw [htasks, filterMap_around_none hlead, List.filterMap_append]
  | concluded hconcluding =>
    unfold Collector.leads at hleads
    rw [hconcluding] at hleads
    cases hleads
  | _ => cases hleads

/-- A collector of another batch. -/
theorem CollectorMove.fares_other {batch₀ : Batch} {crew : Crew} {limit : Nat} (hother : other ≠ id)
    (htasks : machine.tasks = before ++ .collecting other collector :: after)
    (hmove : CollectorMove other limit crew batch₀ collector batch' collector' hired events) :
    Team.Fares machine id (.among id batch machine.tasks) (some (.collecting other collector))
      events
      (.among id batch (before ++ .collecting other collector' :: after ++
        List.replicate hired (.working other .acquiring))) := by
  rw [Team.among_hired_other hother]
  exact Team.fares_aside htasks ⟨Task.lead?_of_ne hother, Task.lead?_of_ne hother⟩ ⟨rfl, rfl⟩
    (hmove.callbacks_eq hother) hmove.answered_eq

end

/-- A worker of the batch. -/
theorem WorkerMove.fares {pool' : Pool} {stage' : WorkerStage}
    (htasks : machine.tasks = before ++ .working id stage :: after)
    (hmove : WorkerMove id machine.depth machine.config.acquireTimeoutMs machine.pool batch stage
      pool' batch' stage' events) :
    Team.Fares machine id (.among id batch machine.tasks) (some (.working id stage)) events
      (.among id batch' (before ++ .working id stage' :: after)) := by
  unfold Team.Fares
  rw [Team.among, Team.among, filterMap_replaced (f := Task.lead? id) htasks rfl rfl,
    filterMap_around_some Task.worker?_self, Option.any_some,
    Task.serves_of_worker? Task.worker?_self]
  refine .inr (.work ?_ hmove)
  show machine.tasks.filterMap (Task.worker? id) = _
  rw [htasks, filterMap_around_some Task.worker?_self]

/-- A cancellation of the batch. -/
theorem StopMove.fares {stage stage' : StopStage}
    (htasks : machine.tasks = before ++ .stopping id stage :: after)
    (hmove : StopMove batch stage batch' stage' events) :
    Team.Fares machine id (.among id batch machine.tasks) (some (.stopping id stage)) events
      (.among id batch' (before ++ .stopping id stage' :: after)) := by
  unfold Team.Fares
  rw [Team.among, Team.among, filterMap_replaced htasks rfl rfl, filterMap_replaced htasks rfl rfl]
  exact .inr (.stop hmove)

/-- A new task that does not serve the batch. -/
theorem Team.among_spawned {task : Task} (hlead : task.lead? id = none)
    (hworker : task.worker? id = none) (tasks : List Task) :
    Team.among id batch (tasks ++ [task]) = .among id batch tasks := by
  rw [Team.among, filterMap_around_none hlead, filterMap_around_none hworker, List.append_nil]

/-- A step that changes a batch concerns the team of that batch or that of another one. -/
theorem Machine.fares_set {machine' : Machine} {mover? : Option Task} {batch₀ : Batch}
    (hbatch : machine.batches[id]? = some batch) (hfound : machine.batches[other]? = some batch₀)
    (hset : machine'.batches = machine.batches.set other batch')
    (hself : other = id → batch₀ = batch → Team.Fares machine id (.among id batch machine.tasks)
      mover? events (.among id batch' machine'.tasks))
    (haside : other ≠ id → Team.Fares machine id (.among id batch machine.tasks) mover? events
      (.among id batch machine'.tasks)) :
    ∃ team', machine'.team? id = some team' ∧
      Team.Fares machine id (.among id batch machine.tasks) mover? events team' := by
  refine ⟨_, Machine.team?_eq (hset ▸ getElem?_set_or hbatch), ?_⟩
  by_cases hother : other = id
  · rw [if_pos hother]
    subst hother
    exact hself rfl (Option.some.inj (hfound.symm.trans hbatch))
  · rw [if_neg hother]
    exact haside hother

end

/-- **A step of a client concerns the team of a batch** only as a step of that team. -/
theorem Step.teamMove {machine' : Machine} {mover? : Option Task} {events : List Event}
    {team : Team} (htidy : machine.Tidy) (h : Step machine mover? machine' events)
    (hteam : machine.team? id = some team) :
    ∃ team', machine'.team? id = some team' ∧ team.Fares machine id mover? events team' := by
  obtain ⟨batch, hbatch, -⟩ := Option.map_eq_some_iff.mp hteam
  obtain rfl : team = .among id batch machine.tasks :=
    Option.some.inj (hteam.symm.trans (Machine.team?_eq hbatch))
  have happended : ∀ batches, (machine.batches ++ batches)[id]? = some batch := by
    intro batches
    rw [List.getElem?_append_left (List.getElem?_eq_some_iff.mp hbatch).1, hbatch]
  cases h with
  | newCall request decoder => exact ⟨_, Machine.team?_eq hbatch, .inl ⟨rfl, rfl, rfl, rfl⟩⟩
  | newBatch hknown => exact ⟨_, Machine.team?_eq (happended _), .inl ⟨rfl, rfl, rfl, rfl⟩⟩
  | addItem hfound hallowed =>
    refine Machine.fares_set hbatch hfound rfl (fun hid hsame => ?_) fun hother => ?_
    · subst hid hsame
      exact .inr (.grow hallowed)
    · exact .inl ⟨rfl, rfl, rfl, rfl⟩
  | @spawn task hfresh =>
    have hquiet : task.lead? id = none ∧ task.worker? id = none := by
      cases hfresh with
      | collecting hknown => exact ⟨Task.lead?_of_not_leads rfl, rfl⟩
      | executing hknown => exact ⟨rfl, rfl⟩
      | cancelling hknown => exact ⟨rfl, rfl⟩
      | stopping hknown => exact ⟨rfl, rfl⟩
    refine ⟨_, Machine.team?_eq hbatch, .inl ⟨?_, rfl, rfl, rfl⟩⟩
    exact Team.among_spawned hquiet.1 hquiet.2 _
  | enqueue hfound hunstarted =>
    refine Machine.fares_set hbatch hfound rfl (fun hid hsame => ?_) fun hother => ?_
    · subst hid hsame
      unfold Team.Fares Team.among
      rw [filterMap_around_some (Task.lead?_of_leads rfl), filterMap_around_none rfl,
        List.append_nil]
      exact .inr (.start _ [] hunstarted (List.append_nil _).symm)
    · exact .inl ⟨Team.among_spawned (Task.lead?_of_ne hother) rfl _, rfl, rfl, rfl⟩
  | poll hfound =>
    have hne : machine.batches.length ≠ id := by
      have hlt := (List.getElem?_eq_some_iff.mp hbatch).1
      omega
    refine ⟨_, Machine.team?_eq (happended _), .inl ⟨?_, rfl, rfl, rfl⟩⟩
    exact Team.among_spawned (Task.lead?_of_ne hne) rfl _
  | executing htasks hfound hmove =>
    exact ⟨_, Machine.team?_eq hbatch,
      Team.fares_aside htasks ⟨rfl, rfl⟩ ⟨rfl, rfl⟩ hmove.callbacks_eq hmove.answered_eq⟩
  | cancelling htasks hfound hmove =>
    refine ⟨_, Machine.team?_eq hbatch, Team.fares_aside htasks ⟨rfl, rfl⟩ ⟨rfl, rfl⟩ ?_ ?_⟩
    · cases hmove <;> rfl
    · cases hmove <;> rfl
  | @collecting _ _ _ _ collector _ _ _ _ htasks hfound hmove =>
    refine Machine.fares_set hbatch hfound rfl (fun hid hsame => ?_) fun hother => ?_
    · subst hid hsame
      cases hleads : collector.leads with
      | true => exact hmove.fares_leading htasks hleads
      | false => exact hmove.fares_unleading htidy htasks hleads
    · exact hmove.fares_other hother htasks
  | working htasks hfound hmove =>
    refine Machine.fares_set hbatch hfound rfl (fun hid hsame => ?_) fun hother => ?_
    · subst hid hsame
      exact hmove.fares htasks
    · exact Team.fares_aside htasks ⟨rfl, rfl⟩
        ⟨Task.worker?_of_ne hother, Task.worker?_of_ne hother⟩ hmove.callbacks_eq
        (hmove.answered_eq hother)
  | stopping htasks hfound hmove =>
    refine Machine.fares_set hbatch hfound rfl (fun hid hsame => ?_) fun hother => ?_
    · subst hid hsame
      exact hmove.fares htasks
    · exact Team.fares_aside htasks ⟨rfl, rfl⟩ ⟨rfl, rfl⟩ hmove.callbacks_eq hmove.answered_eq

end

/-! ## 5. Every run -/

/-- What holds of a team, with what its user has been told, from the beginning and for good: it
holds of every new team, where a copy of a batch has the items of the batch under its keys, and
every step of a team keeps it. -/
structure Team.Lasting (P : Team → List Callback → Prop) : Prop where
  blank : P ⟨.ofItems [], [], []⟩ []
  copied : ∀ {team : Team} {callbacks : List Callback}, P team callbacks →
    P ⟨team.batch.clone, [], []⟩ []
  polled : ∀ {team : Team} {callbacks : List Callback}, P team callbacks →
    P ⟨{ team.batch.clone with
      started := true, cancelled := team.batch.cancelled }, [.launched], []⟩ []
  step : ∀ {id limit depth timeoutMs : Nat} {serving : Bool} {team team' : Team}
    {callbacks : List Callback} {events : Log}, P team callbacks →
    TeamMove id limit depth timeoutMs team serving team' events →
    P team' (callbacks ++ events.callbacks id)

theorem Log.callbacks_append {log events : Log} {id : Nat} :
    (log ++ events).callbacks id = log.callbacks id ++ events.callbacks id := by
  unfold Log.callbacks
  rw [List.filterMap_append]

theorem Log.answered_append {log events : Log} {id : Nat} :
    (log ++ events).answered id = log.answered id ++ events.answered id := by
  unfold Log.answered
  rw [List.filterMap_append]

section

variable {P : Team → List Callback → Prop} {machine machine' : Machine} {mover? : Option Task}
  {log events : Log} {id : Nat}

/-- Nobody works on a batch that there is not. -/
theorem Machine.Tidy.nobody (htidy : machine.Tidy) (hid : machine.batches.length ≤ id) :
    machine.tasks.filterMap (Task.lead? id) = [] ∧
      machine.tasks.filterMap (Task.worker? id) = [] := by
  have hne : ∀ {other}, other < machine.batches.length → other ≠ id := by omega
  refine ⟨List.filterMap_eq_nil_iff.mpr fun task htask => ?_,
    List.filterMap_eq_nil_iff.mpr fun task htask => ?_⟩
  · have hself := htidy task htask
    cases task with
    | collecting other collector => exact Task.lead?_of_ne (hne hself.1)
    | _ => rfl
  · have hself := htidy task htask
    cases task with
    | working other stage => exact Task.worker?_of_ne (hne hself)
    | _ => rfl

/-- A step tells nothing of a batch that there is not. -/
theorem Step.callbacks_unknown (h : Step machine mover? machine' events)
    (hid : machine.batches.length ≤ id) : events.callbacks id = [] := by
  cases h with
  | executing htasks hfound hmove => exact hmove.callbacks_eq
  | cancelling htasks hfound hmove => cases hmove <;> rfl
  | collecting htasks hfound hmove =>
    have hself := (List.getElem?_eq_some_iff.mp hfound).1
    exact hmove.callbacks_eq (by omega)
  | working htasks hfound hmove => exact hmove.callbacks_eq
  | stopping htasks hfound hmove => cases hmove <;> rfl
  | _ => rfl

/-- The team of a batch that a step makes: an empty batch, a copy, or a copy that is started. -/
inductive Team.Born (batches : List Batch) : Team → Prop
  | blank : Born batches ⟨.ofItems [], [], []⟩
  | copied {batch : Batch} (known : batch ∈ batches) : Born batches ⟨batch.clone, [], []⟩
  | polled {batch : Batch} (known : batch ∈ batches) :
    Born batches ⟨{ batch.clone with
      started := true, cancelled := batch.cancelled }, [.launched], []⟩

theorem Step.team_born {team : Team} (htidy : machine.Tidy)
    (h : Step machine mover? machine' events) (hid : machine.batches.length ≤ id)
    (hteam : machine'.team? id = some team) : team.Born machine.batches := by
  obtain ⟨batch, hbatch, rfl⟩ := Option.map_eq_some_iff.mp hteam
  have hlt := (List.getElem?_eq_some_iff.mp hbatch).1
  obtain ⟨hleads, hworkers⟩ := htidy.nobody hid
  rw [Machine.workers_eq]
  unfold Machine.leads
  cases h with
  | @newBatch fresh hfresh =>
    rw [hleads, hworkers]
    obtain rfl : id = machine.batches.length := by
      rw [List.length_append, List.length_singleton] at hlt
      omega
    rw [List.getElem?_concat_length] at hbatch
    cases hbatch
    rcases hfresh with rfl | ⟨batch, hmem, rfl⟩
    · exact .blank
    · exact .copied hmem
  | @poll batch₀ hmem =>
    obtain rfl : id = machine.batches.length := by
      rw [List.length_append, List.length_singleton] at hlt
      omega
    rw [filterMap_around_some (Task.lead?_of_leads rfl), filterMap_around_none rfl, hleads,
      List.append_nil, hworkers]
    rw [List.getElem?_concat_length] at hbatch
    cases hbatch
    exact .polled hmem
  | newCall request decoder => exact absurd hlt (Nat.not_lt.mpr hid)
  | spawn hfresh => exact absurd hlt (Nat.not_lt.mpr hid)
  | executing htasks hfound hmove => exact absurd hlt (Nat.not_lt.mpr hid)
  | cancelling htasks hfound hmove => exact absurd hlt (Nat.not_lt.mpr hid)
  | _ =>
    rw [List.length_set] at hlt
    exact absurd hlt (Nat.not_lt.mpr hid)

/-- What lasts holds of the team of a batch that a step makes. -/
theorem Step.newTeam {team : Team} (hP : Team.Lasting P) (htidy : machine.Tidy)
    (hold : ∀ id team, machine.team? id = some team → P team (log.callbacks id))
    (h : Step machine mover? machine' events) (hid : machine.batches.length ≤ id)
    (hteam : machine'.team? id = some team) : P team [] := by
  have hknown : ∀ batch ∈ machine.batches, ∃ team callbacks, P team callbacks ∧
      team.batch = batch := by
    intro batch hbatch
    obtain ⟨id, hid⟩ := List.mem_iff_getElem?.mp hbatch
    exact ⟨_, _, hold id _ (Machine.team?_eq hid), rfl⟩
  cases h.team_born htidy hid hteam with
  | blank => exact hP.blank
  | copied hmem =>
    obtain ⟨team, callbacks, holds, rfl⟩ := hknown _ hmem
    exact hP.copied holds
  | polled hmem =>
    obtain ⟨team, callbacks, holds, rfl⟩ := hknown _ hmem
    exact hP.polled holds

theorem Step.batches_length_le (h : Step machine mover? machine' events) :
    machine.batches.length ≤ machine'.batches.length := by
  cases h <;> simp

/-- What lasts holds of every team of a client, and nothing is told of batches that do not exist. -/
structure Machine.Holds (P : Team → List Callback → Prop) (machine : Machine) (log : Log) :
    Prop where
  tidy : machine.Tidy
  teams : ∀ id team, machine.team? id = some team → P team (log.callbacks id)
  unknown : ∀ id, machine.batches.length ≤ id → log.callbacks id = []

theorem Machine.Holds.step (hP : Team.Lasting P) (hmachine : machine.Holds P log)
    (h : Step machine mover? machine' events) : machine'.Holds P (log ++ events) := by
  obtain ⟨htidy, hteams, hunknown⟩ := hmachine
  refine ⟨htidy.step h, fun id team' hteam' => ?_, fun id hid => ?_⟩
  · rw [Log.callbacks_append]
    cases hteam : machine.team? id with
    | some team =>
      obtain ⟨team'', hteam'', hfares⟩ := h.teamMove htidy hteam
      cases hteam'.symm.trans hteam''
      rcases hfares with ⟨rfl, hquiet, -⟩ | hmove
      · rw [hquiet, List.append_nil]
        exact hteams id _ hteam
      · exact hP.step (hteams id _ hteam) hmove
    | none =>
      have hid : machine.batches.length ≤ id :=
        List.getElem?_eq_none_iff.mp (Option.map_eq_none_iff.mp hteam)
      rw [hunknown id hid, h.callbacks_unknown hid]
      exact h.newTeam hP htidy hteams hid hteam'
  · have hid' := Nat.le_trans h.batches_length_le hid
    rw [Log.callbacks_append, hunknown id hid', h.callbacks_unknown hid', List.append_nil]

/-- **What lasts holds of every team in every run.** -/
theorem World.Reachable.holds {config : Config} {world : World} (hP : Team.Lasting P)
    (h : Reachable config world) : world.machine.Holds P world.log := by
  have hnew : (Machine.new config).Holds P [] := by
    refine ⟨List.forall_mem_nil _, fun id team hteam => ?_, fun _ _ => rfl⟩
    obtain ⟨batch, hbatch, -⟩ := Option.map_eq_some_iff.mp hteam
    exact absurd hbatch (by simp [Machine.new])
  exact @Reachable.induct config (Machine.Holds P) hnew (fun _ h hstep => h.step hP hstep) world h

end

end RemoteCall.Client
