/-
# How a batch comes to its end

A batch that is started ends, whatever the endpoint answers and whoever cancels, as long as its
leader and its workers get their turns.  Two things make it so:

* Each step of the leader or of a worker takes something from the `effort` that is still to come,
  and no step of anybody else adds to it (`TeamMove.effort_le`).
* While the leader is not over, it or one of its workers can take a step (`World.able`): the leader
  waits for its workers only, and a worker that waits for the endpoint can be answered.

So a run in which one of them moves whenever one of them can (`Run.Fair`) brings the leader to its
end.
-/
import Mathlib.Algebra.GroupWithZero.Nat
import RemoteCall.Proofs.Client.Accounts

namespace RemoteCall.Client

/-! ## 1. Effort -/

/-- What a worker still has to do, with the reports that it may make. -/
def WorkerStage.effort : WorkerStage → Nat
  | acquiring => 13
  | connecting => 12
  | leased _ => 11
  | ready _ _ => 9
  | fetching _ _ => 8
  | sending _ _ sent todo => 6 * sent.length + 7 * todo.length + 10
  | receiving _ _ waiting _ => 6 * waiting.length + 10
  | received _ _ _ _ waiting _ => 6 * waiting.length + 15
  | failing _ _ => 6
  | releasing _ _ => 1
  | finished | abandoned => 0

/-- What a collector still has to do, apart from the reports that it has not taken.  Launching a
batch brings the items and the workers into play. -/
def CollectorStage.effort (items : Nat) : CollectorStage → Nat
  | entry => 12 + 25 * items
  | launching => 11 + 25 * items
  | listening => 10
  | inspecting _ => 13
  | delivering _ => 12
  | rejecting _ => 10
  | halting _ => 9
  | sweeping _ => 8
  | firing conns _ => 7 + conns.length
  | joining _ => 5
  | joined _ => 4
  | concluding _ => 3
  | finished _ | abandoned => 0

/-- What the items of the queue, the reports and the registered connections will take. -/
def Batch.effort (batch : Batch) : Nat :=
  12 * batch.queue.length + 4 * batch.channel.length + batch.registered.length

/-- What is still to be done for a batch. -/
def effortOf (batch : Batch) (collector : Collector) (workers : List WorkerStage) : Nat :=
  batch.effort + collector.stage.effort batch.items.length + (workers.map WorkerStage.effort).sum

theorem WorkerStage.effort_await_le (conn : ConnId) (slot : Nat) (waiting : List BatchItem)
    (sendError : Option Error) :
    (await conn slot waiting sendError).effort ≤ 6 * waiting.length + 10 := by
  unfold await
  split <;> simp [effort]

theorem WorkerStage.effort_dispatch_le (conn : ConnId) (slot : Nat) (sent todo : List BatchItem) :
    (dispatch conn slot sent todo).effort ≤ 6 * sent.length + 7 * todo.length + 10 := by
  unfold dispatch
  split
  · exact effort_await_le conn slot sent none
  · exact Nat.le_refl _

theorem WorkerStage.effort_pos {stage : WorkerStage} {id : Nat} {conn : ConnId}
    (h : (stage.grip id).conn? = some conn) : 0 < stage.effort := by
  cases stage with
  | acquiring | connecting | finished | abandoned => cases h
  | _ => simp [effort]

theorem registered_append (batch : Batch) (conn : ConnId) :
    ({ batch with aborts := batch.aborts ++ [some conn] } : Batch).registered =
      batch.registered ++ [conn] :=
  List.filterMap_append

/-- Withdrawing a registration adds none. -/
theorem length_registered_unregister_le (batch : Batch) (slot : Nat) :
    (batch.unregister slot).2.registered.length ≤ batch.registered.length := by
  have hset : ∀ (aborts : List (Option ConnId)) (slot : Nat),
      ((aborts.set slot none).filterMap id).length ≤ (aborts.filterMap id).length := by
    intro aborts
    induction aborts with
    | nil => intro slot; simp
    | cons abort aborts ih =>
      intro slot
      cases slot with
      | zero => cases abort <;> simp
      | succ slot => cases abort <;> simpa using ih slot
  exact hset batch.aborts slot

@[simp] theorem registered_sweep (batch : Batch) : batch.sweep.registered = [] := by
  simp [Batch.registered, Batch.sweep]

/-- **A step of a worker** takes something from the effort. -/
theorem WorkerMove.effort_lt {id depth timeoutMs : Nat} {pool pool' : Pool} {batch batch' : Batch}
    {stage stage' : WorkerStage} {events : List Event}
    (h : WorkerMove id depth timeoutMs pool batch stage pool' batch' stage' events) :
    batch'.effort + stage'.effort < batch.effort + stage.effort := by
  cases h with
  | registered =>
    simp only [Batch.effort, registered_append, WorkerStage.effort, List.length_append,
      List.length_singleton]
    omega
  | @drained conn slot hempty =>
    have hle := length_registered_unregister_le batch slot
    simp only [Batch.effort, WorkerStage.effort, Batch.unregister] at hle ⊢
    omega
  | @fetched conn slot item items hfound =>
    have hlength : batch.queue.length =
        (item :: items).length + (batch.queue.drop depth).length := by
      rw [← hfound, ← List.length_append, List.take_append_drop]
    simp only [Batch.effort, Batch.registered, WorkerStage.effort, List.length_nil,
      List.length_cons] at hlength ⊢
    omega
  | @sent conn slot item sent todo =>
    have hle := WorkerStage.effort_dispatch_le conn slot (sent ++ [item]) todo
    simp only [WorkerStage.effort, List.length_append, List.length_cons, List.length_nil] at hle ⊢
    omega
  | @sendFailed conn slot item sent todo error =>
    have hle := WorkerStage.effort_await_le conn slot sent (some error)
    simp only [WorkerStage.effort, List.length_cons] at hle ⊢
    omega
  | received =>
    simp only [WorkerStage.effort, List.length_cons]
    omega
  | receiveFailed =>
    simp only [WorkerStage.effort, List.length_cons]
    omega
  | panicked hholding =>
    exact Nat.add_lt_add_left (WorkerStage.effort_pos hholding) _
  | @reported conn slot item frame waiting sendError =>
    have hle := WorkerStage.effort_await_le conn slot waiting sendError
    simp only [Batch.effort, Batch.report, Batch.registered, WorkerStage.effort,
      List.length_append, List.length_singleton] at hle ⊢
    omega
  | failed =>
    simp only [Batch.effort, Batch.report, Batch.registered, WorkerStage.effort,
      List.length_append, List.length_singleton]
    omega
  | _ =>
    simp only [Batch.effort, Batch.registered, WorkerStage.effort]
    omega

/-- **A step of the leader** takes something from the effort; the workers that it starts count. -/
theorem CollectorMove.effort_lt {id limit hired : Nat} {crew : Crew} {batch batch' : Batch}
    {collector collector' : Collector} {events : List Event}
    (h : CollectorMove id limit crew batch collector batch' collector' hired events) :
    batch'.effort + collector'.stage.effort batch'.items.length + 13 * hired <
      batch.effort + collector.stage.effort batch.items.length := by
  cases h with
  | launched =>
    have hhired := Nat.min_le_right limit batch.items.length
    simp only [Batch.effort, Batch.registered, CollectorStage.effort]
    omega
  | took hfound =>
    simp only [Batch.effort, Batch.registered, CollectorStage.effort, hfound, List.length_cons]
    omega
  | delivered =>
    rename_i delivery completed errors
    cases delivery <;> simp [Collector.note, CollectorStage.effort]
  | swept =>
    simp only [Batch.effort, registered_sweep, CollectorStage.effort, List.length_nil]
    simp only [Batch.sweep]
    omega
  | fired =>
    simp only [CollectorStage.effort, List.length_cons]
    omega
  | concluded hconcluding =>
    simp only [Batch.effort, Batch.registered, CollectorStage.effort, hconcluding,
      List.filterMap_nil, List.length_nil]
    omega
  | _ =>
    simp only [Batch.effort, Batch.registered, CollectorStage.effort]
    omega

/-- A cancellation adds nothing to the effort. -/
theorem StopMove.effort_le {batch batch' : Batch} {stage stage' : StopStage} {events : List Event}
    (h : StopMove batch stage batch' stage' events) : batch'.effort ≤ batch.effort := by
  cases h with
  | swept =>
    simp only [Batch.effort, registered_sweep, List.length_nil]
    exact Nat.le_add_right _ _
  | _ => exact Nat.le_refl _

/-! ## 2. Order in a team -/

/-- A worker that waits for the endpoint has something to send or to receive. -/
def WorkerStage.IsPoised : WorkerStage → Prop
  | sending _ _ _ todo => todo ≠ []
  | receiving _ _ waiting _ => waiting ≠ []
  | _ => True

/-- Whether a collector has seen its workers end. -/
def CollectorStage.isClosing : CollectorStage → Bool
  | joined _ | concluding _ | finished _ | abandoned => true
  | _ => false

/-- How a leader and its workers stand to each other. -/
structure Orderly (workers : List WorkerStage) (collector : Collector) : Prop where
  poised : ∀ worker ∈ workers, worker.IsPoised
  /-- When the leader closes the batch its workers are over. -/
  workers_over : collector.stage.isClosing = true → ∀ worker ∈ workers, worker.isOver = true
  /-- A leader is abandoned only if a worker is. -/
  stricken : collector.stage = .abandoned → .abandoned ∈ workers

theorem Orderly.launched : Orderly [] .launched :=
  ⟨List.forall_mem_nil _, fun _ => List.forall_mem_nil _, nofun⟩

theorem WorkerStage.isPoised_await {conn : ConnId} {slot : Nat} {waiting : List BatchItem}
    {sendError : Option Error} : (await conn slot waiting sendError).IsPoised := by
  unfold await
  split
  · trivial
  · trivial
  · exact List.cons_ne_nil _ _

theorem WorkerStage.isPoised_dispatch {conn : ConnId} {slot : Nat} {sent todo : List BatchItem} :
    (dispatch conn slot sent todo).IsPoised := by
  unfold dispatch
  split
  · exact isPoised_await
  · exact List.cons_ne_nil _ _

theorem WorkerMove.isPoised {id depth timeoutMs : Nat} {pool pool' : Pool} {batch batch' : Batch}
    {stage stage' : WorkerStage} {events : List Event}
    (h : WorkerMove id depth timeoutMs pool batch stage pool' batch' stage' events) :
    stage'.IsPoised := by
  cases h with
  | fetched => exact List.cons_ne_nil _ _
  | sent => exact WorkerStage.isPoised_dispatch
  | sendFailed => exact WorkerStage.isPoised_await
  | received => trivial
  | reported => exact WorkerStage.isPoised_await
  | _ => trivial

/-- A worker that is over takes no step. -/
theorem WorkerMove.not_over {id depth timeoutMs : Nat} {pool pool' : Pool} {batch batch' : Batch}
    {stage stage' : WorkerStage} {events : List Event}
    (h : WorkerMove id depth timeoutMs pool batch stage pool' batch' stage' events) :
    stage.isOver = false := by
  cases h with
  | panicked hholding =>
    cases stage with
    | finished | abandoned => cases hholding
    | _ => rfl
  | _ => rfl

/-- A collector that is over takes no step. -/
theorem CollectorMove.not_over {id limit hired : Nat} {crew : Crew} {batch batch' : Batch}
    {collector collector' : Collector} {events : List Event}
    (h : CollectorMove id limit crew batch collector batch' collector' hired events) :
    collector.isOver = false := by
  cases h with
  | concluded hconcluding =>
    unfold Collector.isOver
    rw [hconcluding]
  | _ => rfl

theorem Orderly.work {id depth timeoutMs : Nat} {pool pool' : Pool} {batch batch' : Batch}
    {before after : List WorkerStage} {stage stage' : WorkerStage} {collector : Collector}
    {events : List Event} (h : Orderly (before ++ stage :: after) collector)
    (hmove : WorkerMove id depth timeoutMs pool batch stage pool' batch' stage' events) :
    Orderly (before ++ stage' :: after) collector := by
  obtain ⟨hpoised, hover, hstricken⟩ := h
  have hnotOver := hmove.not_over
  have hmem : stage ∈ before ++ stage :: after :=
    List.mem_append_right _ (List.mem_cons_self ..)
  rw [List.forall_mem_append, List.forall_mem_cons] at hpoised
  refine ⟨?_, fun hclosing => ?_, fun hstage => ?_⟩
  · exact List.forall_mem_append.mpr
      ⟨hpoised.1, List.forall_mem_cons.mpr ⟨hmove.isPoised, hpoised.2.2⟩⟩
  · exact absurd ((hover hclosing stage hmem).symm.trans hnotOver) (by simp)
  · have hclosing : collector.stage.isClosing = true := by
      rw [hstage]
      rfl
    exact absurd ((hover hclosing stage hmem).symm.trans hnotOver) (by simp)

theorem Crew.of_ne_working {workers : List WorkerStage} (h : Crew.of workers ≠ .working) :
    ∀ worker ∈ workers, worker.isOver = true := by
  unfold Crew.of at h
  split at h
  · exact List.all_eq_true.mp ‹_›
  · exact absurd rfl h

theorem Crew.abandoned_mem {workers : List WorkerStage} (h : Crew.of workers = .panicked) :
    .abandoned ∈ workers := by
  unfold Crew.of at h
  split at h
  · split at h
    · obtain ⟨worker, hmem, habandoned⟩ := List.any_eq_true.mp ‹_›
      cases worker with
      | abandoned => exact hmem
      | _ => cases habandoned
    · cases h
  · cases h

theorem Orderly.lead {id limit hired : Nat} {batch batch' : Batch} {workers : List WorkerStage}
    {collector collector' : Collector} {events : List Event} (h : Orderly workers collector)
    (hleads : collector.leads = true)
    (hmove : CollectorMove id limit (Crew.of workers) batch collector batch' collector' hired
      events) :
    Orderly (workers ++ List.replicate hired .acquiring) collector' := by
  obtain ⟨hpoised, hover, hstricken⟩ := h
  have hpoised' : ∀ worker ∈ workers ++ List.replicate hired .acquiring, worker.IsPoised := by
    refine List.forall_mem_append.mpr ⟨hpoised, fun worker hworker => ?_⟩
    rw [(List.mem_replicate.mp hworker).2]
    trivial
  cases hmove with
  | refused => cases hleads
  | joined hcrew =>
    rw [List.replicate_zero, List.append_nil] at hpoised' ⊢
    exact ⟨hpoised', fun _ => Crew.of_ne_working (by simp [hcrew]), nofun⟩
  | abandoned hcrew =>
    rw [List.replicate_zero, List.append_nil] at hpoised' ⊢
    exact ⟨hpoised', fun _ => Crew.of_ne_working (by simp [hcrew]),
      fun _ => Crew.abandoned_mem hcrew⟩
  | judged =>
    rw [List.replicate_zero, List.append_nil] at hpoised' ⊢
    exact ⟨hpoised', fun _ => hover rfl, nofun⟩
  | concluded hconcluding =>
    rw [List.replicate_zero, List.append_nil] at hpoised' ⊢
    exact ⟨hpoised', fun _ => hover (by rw [hconcluding]; rfl), nofun⟩
  | delivered =>
    rename_i delivery completed errors
    cases delivery <;> exact ⟨hpoised', nofun, nofun⟩
  | _ => exact ⟨hpoised', nofun, nofun⟩

/-- A balanced team whose leader, if there is one, and workers are in order. -/
def Team.InOrder (team : Team) (callbacks : List Callback) : Prop :=
  team.Balanced callbacks ∧ ∀ collector ∈ team.leads, Orderly team.workers collector

theorem Team.InOrder.lasting : Team.Lasting Team.InOrder where
  blank := ⟨Team.Balanced.lasting.blank, List.forall_mem_nil _⟩
  copied h := ⟨Team.Balanced.lasting.copied h.1, List.forall_mem_nil _⟩
  polled h := ⟨Team.Balanced.lasting.polled h.1, List.forall_mem_singleton.mpr .launched⟩
  step := by
    intro id limit depth timeoutMs serving team team' callbacks events h hstep
    refine ⟨h.1.step hstep, ?_⟩
    obtain ⟨hbalanced, horderly⟩ := h
    cases hbalanced with
    | waiting hkeys hunstarted hqueue hchannel =>
      cases hstep with
      | grow hallowed => exact List.forall_mem_nil _
      | start before after _ hleads =>
        obtain ⟨rfl, rfl⟩ := List.append_eq_nil_iff.mp hleads.symm
        exact List.forall_mem_singleton.mpr .launched
      | lead hleads => exact absurd hleads (by simp)
      | work hworkers => exact absurd hworkers (by simp)
      | stop hmove => exact List.forall_mem_nil _
    | running hkeys hstarted hleads hledger =>
      have horderly' := List.forall_mem_singleton.mp horderly
      cases hstep with
      | grow hallowed => exact horderly
      | start before after hunstarted => exact absurd (hstarted.symm.trans hunstarted) (by simp)
      | lead hself _ hmove =>
        obtain ⟨rfl, rfl, rfl⟩ := append_cons_eq_singleton hself.symm
        exact List.forall_mem_singleton.mpr (horderly'.lead hleads hmove)
      | work hworkers hmove =>
        cases hworkers
        exact List.forall_mem_singleton.mpr (horderly'.work hmove)
      | stop hmove => exact horderly

theorem TeamMove.started {id limit depth timeoutMs : Nat} {serving : Bool} {team team' : Team}
    {events : Log} (h : TeamMove id limit depth timeoutMs team serving team' events)
    (hstarted : team.batch.started = true) : team'.batch.started = true := by
  cases h with
  | grow hallowed => exact hstarted
  | start before after hunstarted => rfl
  | lead hself hleads hmove => exact (hmove.batch_frame hleads).2.trans hstarted
  | work hworkers hmove => exact hmove.batch_frame.2.trans hstarted
  | stop hmove => exact hmove.batch_frame.2.1.trans hstarted

/-- **What a step makes of a running team**: the leader stays, and the effort shrinks with every
step of the leader or of a worker and never grows. -/
theorem TeamMove.effort_le {id limit depth timeoutMs : Nat} {serving : Bool} {batch : Batch}
    {collector : Collector} {workers : List WorkerStage} {team' : Team} {events : Log}
    (hstarted : batch.started = true)
    (h : TeamMove id limit depth timeoutMs ⟨batch, [collector], workers⟩ serving team' events) :
    ∃ batch' collector' workers', team' = ⟨batch', [collector'], workers'⟩ ∧
      effortOf batch' collector' workers' + serving.toNat ≤ effortOf batch collector workers := by
  cases h with
  | grow hallowed => simp [Batch.addFault?, hstarted] at hallowed
  | start before after hunstarted => exact absurd (hstarted.symm.trans hunstarted) (by simp)
  | @lead before after collector₀ collector' batch' hired events hself _ hmove =>
    obtain ⟨rfl, rfl, rfl⟩ := append_cons_eq_singleton hself.symm
    refine ⟨_, _, _, rfl, ?_⟩
    have hlt := hmove.effort_lt
    simp only [effortOf, List.map_append, List.map_replicate, List.sum_append,
      List.sum_replicate_nat, WorkerStage.effort, Bool.toNat_true] at hlt ⊢
    omega
  | @work before after stage stage' pool pool' batch' events hworkers hmove =>
    obtain rfl : workers = before ++ stage :: after := hworkers
    refine ⟨_, _, _, rfl, ?_⟩
    have hlt := hmove.effort_lt
    rw [effortOf, effortOf, hmove.batch_frame.1]
    simp only [List.map_append, List.map_cons, List.sum_append, List.sum_cons,
      Bool.toNat_true] at hlt ⊢
    omega
  | stop hmove =>
    refine ⟨_, _, _, rfl, ?_⟩
    exact Nat.add_le_add_right (Nat.add_le_add
      hmove.effort_le (Nat.le_of_eq (by rw [hmove.batch_frame.1]))) _

/-! ## 3. Somebody can always take a step -/

section

variable {world : World} {id i : Nat} {batch : Batch}

/-- Whether a step of a run is one of a task that serves batch `id`. -/
def World.serves (world : World) (id : Nat) (label : Label) : Bool :=
  (label.task?.bind (world.machine.tasks[·]?)).any (Task.serves id)

/-- A task that serves a batch can take a step. -/
def World.CanServe (world : World) (id : Nat) : Prop :=
  ∃ label, world.serves id label = true ∧ (world.step label).isSome = true

/-- A worker that is not over can take a step, be sent away or be answered. -/
theorem WorkerStage.able {stage : WorkerStage} (hpoised : stage.IsPoised)
    (hover : stage.isOver = false) (depth timeoutMs : Nat) (pool : Pool) (batch : Batch) :
    (∃ turn, stage.advance depth pool batch = some turn) ∨
      (∃ turn, stage.expire timeoutMs pool batch = some turn) ∨
      ∃ operation answer turn, stage.operation? = some operation ∧
        stage.answered pool batch answer = some turn := by
  cases stage with
  | acquiring =>
    refine .inr (.inl ?_)
    unfold expire
    cases acquire pool batch <;> exact ⟨_, rfl⟩
  | connecting => exact .inr (.inr ⟨_, .connected, _, rfl, rfl⟩)
  | leased conn =>
    refine .inl ?_
    simp only [advance]
    cases batch.isStopping <;> exact ⟨_, rfl⟩
  | ready conn slot =>
    refine .inl ?_
    simp only [advance]
    cases batch.isStopping <;> exact ⟨_, rfl⟩
  | fetching conn slot =>
    refine .inl ?_
    simp only [advance]
    cases batch.queue.take depth <;> exact ⟨_, rfl⟩
  | sending conn slot sent todo =>
    cases todo with
    | nil => exact absurd rfl hpoised
    | cons item todo => exact .inr (.inr ⟨_, .sent, _, rfl, rfl⟩)
  | receiving conn slot waiting sendError =>
    cases waiting with
    | nil => exact absurd rfl hpoised
    | cons item waiting => exact .inr (.inr ⟨_, .received [], _, rfl, rfl⟩)
  | received conn slot item frame waiting sendError => exact .inl ⟨_, rfl⟩
  | failing conn error => exact .inl ⟨_, rfl⟩
  | releasing conn broken => exact .inl ⟨_, rfl⟩
  | finished => cases hover
  | abandoned => cases hover

theorem World.worker_able {stage : WorkerStage}
    (htask : world.machine.tasks[i]? = some (.working id stage))
    (hbatch : world.machine.batches[id]? = some batch) (hpoised : stage.IsPoised)
    (hover : stage.isOver = false) : world.CanServe id := by
  have hserves : ∀ label : Label, label.task? = some i → world.serves id label = true := by
    intro label hlabel
    rw [serves, hlabel, Option.bind_some, htask]
    exact Task.serves_of_worker? Task.worker?_self
  rcases WorkerStage.able hpoised hover world.machine.depth world.machine.config.acquireTimeoutMs
    world.machine.pool batch with
    ⟨turn, hturn⟩ | ⟨turn, hturn⟩ | ⟨operation, answer, turn, hoperation, hturn⟩
  · refine ⟨.advance i, hserves _ rfl, ?_⟩
    simp [step, Machine.advance, htask, hbatch, hturn]
  · refine ⟨.expire i, hserves _ rfl, ?_⟩
    simp [step, Machine.expire, htask, hbatch, hturn]
  · refine ⟨.answer i answer, hserves _ rfl, ?_⟩
    simp [step, Machine.answer, Machine.operation?, htask, hbatch, hoperation, hturn]

/-- A collector that is not over can take a step unless it waits for its workers. -/
theorem Collector.able {crew : Crew} {collector : Collector} (id limit depth : Nat) (batch : Batch)
    (hover : collector.isOver = false) (hcrew : crew ≠ .working) :
    ∃ turn, collector.advance id limit depth crew batch = some turn := by
  obtain ⟨stage, completed, errors⟩ := collector
  cases stage with
  | entry =>
    simp only [advance]
    cases batch.started <;> exact ⟨_, rfl⟩
  | listening =>
    simp only [advance]
    cases batch.channel with
    | cons report channel => exact ⟨_, rfl⟩
    | nil =>
      cases crew with
      | working => exact absurd rfl hcrew
      | ended | panicked => exact ⟨_, rfl⟩
  | inspecting report =>
    simp only [advance]
    cases batch.cancelled with
    | true => exact ⟨_, rfl⟩
    | false => cases report <;> exact ⟨_, rfl⟩
  | firing conns error => cases conns <;> exact ⟨_, rfl⟩
  | joining failure =>
    cases crew with
    | working => exact absurd rfl hcrew
    | ended | panicked => exact ⟨_, rfl⟩
  | joined failure => cases failure <;> exact ⟨_, rfl⟩
  | finished result => cases hover
  | abandoned => cases hover
  | _ => exact ⟨_, rfl⟩

/-- **Until its leader is over, somebody can take a step for a batch.** -/
theorem World.able {collector : Collector} {workers : List WorkerStage}
    (hteam : world.machine.team? id = some ⟨batch, [collector], workers⟩)
    (horderly : Orderly workers collector) (hover : collector.isOver = false) :
    world.CanServe id := by
  obtain ⟨batch', hbatch, hteam⟩ := Option.map_eq_some_iff.mp hteam
  obtain ⟨rfl, hleads, hworkers⟩ := Team.mk.inj hteam
  by_cases hcrew : world.machine.crew id = .working
  · -- the leader may have to wait, but a worker does not
    have hworking : ∃ stage ∈ workers, stage.isOver = false := by
      by_contra hnone
      simp only [not_exists, not_and, Bool.not_eq_false] at hnone
      unfold Machine.crew at hcrew
      rw [hworkers, if_pos (List.all_eq_true.mpr hnone)] at hcrew
      split at hcrew <;> cases hcrew
    obtain ⟨stage, hmem, hstage⟩ := hworking
    have hpoised := horderly.poised stage hmem
    rw [← hworkers, Machine.workers_eq] at hmem
    obtain ⟨task, htask, hworker⟩ := List.mem_filterMap.mp hmem
    obtain ⟨i, hi⟩ := List.mem_iff_getElem?.mp htask
    obtain rfl := Task.eq_working hworker
    exact worker_able hi hbatch hpoised hstage
  · have hmem : collector ∈ world.machine.leads id := by
      rw [hleads]
      exact List.mem_singleton_self collector
    obtain ⟨task, htask, hlead⟩ := List.mem_filterMap.mp hmem
    obtain ⟨i, hi⟩ := List.mem_iff_getElem?.mp htask
    obtain rfl := Task.eq_collecting hlead
    refine ⟨.advance i, ?_, ?_⟩
    · rw [serves, Label.task?, Option.bind_some, hi]
      exact Task.serves_of_lead? hlead
    · obtain ⟨turn, hturn⟩ := Collector.able id world.machine.workerLimit world.machine.depth batch'
        hover hcrew
      simp [step, Machine.advance, hi, hbatch, hturn]

end

end RemoteCall.Client
