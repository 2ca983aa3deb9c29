/-
# A batch completes if it gets a connection

A batch that nobody cancels, none of whose sends and receives fails, and one of whose workers gets a
connection, completes, however it is tuned and in whatever order its workers take their steps: every
item is delivered, with what the endpoint's answer to its request decodes to (`World.Completes`).  If
no worker gets a connection nothing is sent or delivered, and the batch fails with the error that one
of its workers came back with (`Run.EmptyHanded`).  The two are put together in
`Run.batch_completes`.

That no item is lost is known of every smooth batch (`Smooth.lossless`).  What is added here is that
the queue is emptied: a worker that has a connection stops only at an empty queue, so from then on
the queue is empty or somebody is at work on it (`Attended`).
-/
import RemoteCall.Proofs.Client.Attribution
import RemoteCall.Proofs.Client.Batch.Smooth

namespace RemoteCall.Client

/-! ## 1. Smooth runs -/

namespace Run

variable {config : Config} {run : Run config} {id n m : Nat} {items : List BatchItem}
  {batch batch' : Batch} {collector collector' : Collector} {workers workers' : List WorkerStage}

/-- The batch has these items and is started; nobody cancels it, none of its workers panics, and the
run is fair to it. -/
structure Calm (run : Run config) (id : Nat) (items : List BatchItem) : Prop where
  fair : run.Fair id
  unharmed : run.Unharmed id
  uncancelled : run.Uncancelled id
  started : ∃ n batch, (run.world n).machine.batches[id]? = some batch ∧ batch.started = true ∧
    batch.items = items

/-- No send or receive for an item of the batch fails. -/
def Unfailed (run : Run config) (id : Nat) : Prop :=
  ∀ n, NoneFailed ((run.world n).log.answered id)

/-- A worker of the batch gets a connection. -/
def Connects (run : Run config) (id : Nat) : Prop :=
  ∃ n worker conn, worker ∈ (run.world n).machine.workers id ∧
    (worker.grip id).conn? = some conn

theorem Calm.led (h : run.Calm id items) :
    ∃ n batch collector workers, run.Led id n batch collector workers ∧ batch.items = items := by
  obtain ⟨n, batch, hbatch, hstarted, hitems⟩ := h.started
  obtain ⟨collector, hled⟩ := led_of_going hbatch (.inl hstarted)
  exact ⟨n, batch, collector, _, hled, hitems⟩

theorem Calm.items_eq (h : run.Calm id items) (hled : run.Led id n batch collector workers) :
    batch.items = items := by
  obtain ⟨_, _, _, _, hled₀, hitems⟩ := h.led
  exact (hled₀.items_eq hled).trans hitems

/-- **A batch without failures is smooth** from its launch on. -/
theorem Led.smooth (hcalm : run.Calm id items) (hunfailed : run.Unfailed id)
    (h : run.Led id n batch collector workers) (hlaunched : collector.stage ≠ .launching) :
    Smooth batch workers collector ((run.world n).log.told id) := by
  refine led_induct run id (P := fun n batch collector workers =>
    collector.stage ≠ .launching → Smooth batch workers collector ((run.world n).log.told id))
    (fun _ hstage hlaunched => absurd hstage hlaunched)
    (fun {n batch collector workers batch' collector' workers' events} hled hled' hlog hturn h
      hlaunched' => ?_) h hlaunched
  obtain ⟨hanswered, htold⟩ := log_next id hlog
  have huncancelled := hcalm.uncancelled n batch hled.batch_eq
  rw [htold]
  cases hturn with
  | rest huntold =>
    rw [Log.told_of_callbacks huntold, List.append_nil]
    exact h hlaunched'
  | launch hstage hlistening huntold =>
    have huntouched := hled.launching hstage
    rw [huntouched.told_eq, Log.told_of_callbacks huntold]
    exact Smooth.launched rfl huntouched.channel_eq huntouched.halted_eq hlistening
  | lead hstage hmove =>
    exact (h hstage).lead hled.ledger.1 hstage huncancelled
      (hled.crew_ne_panicked hcalm.unharmed) hmove
  | @work before after stage stage' _ _ _ _ hmove =>
    rw [Log.told_of_callbacks hmove.callbacks_eq, List.append_nil]
    have hunharmed := hled'.ne_abandoned hcalm.unharmed (mem_around.mpr (.inr rfl))
    have hnoneFailed : NoneFailed (Log.answered events id) := by
      intro exchange hmem
      refine hunfailed (n + 1) exchange ?_
      rw [hanswered]
      exact List.mem_append_right _ hmem
    exact (h hlaunched').work (Nat.le_max_right _ _) huncancelled hunharmed hnoneFailed hmove
  | stop hmove =>
    obtain ⟨aborts, rfl⟩ := hmove.aborts_only (hcalm.uncancelled (n + 1) _ hled'.batch_eq)
    rw [Log.told_of_callbacks hmove.callbacks_eq, List.append_nil]
    obtain ⟨hleader, hcrew, hreports, hgoing, hspent, hending, hended, hlossless⟩ := h hlaunched'
    exact ⟨hleader, hcrew, hreports, hgoing, hspent, hending, hended, hlossless⟩

end Run

/-! ## 2. With a connection -/

/-- Whether a worker has a connection and has not made all its reports. -/
def WorkerStage.isBusy (worker : WorkerStage) : Bool := !worker.isEarly && !worker.isDone

/-- The queue is empty or somebody is at work on it. -/
def Attended (batch : Batch) (workers : List WorkerStage) : Prop :=
  batch.queue = [] ∨ ∃ worker ∈ workers, worker.isBusy = true

section

variable {id depth timeoutMs : Nat} {pool pool' : Pool} {batch batch' : Batch}
  {stage stage' : WorkerStage} {events : List Event}

/-- A worker that is at work on the queue goes on until the queue is empty. -/
theorem WorkerMove.attended
    (h : WorkerMove id depth timeoutMs pool batch stage pool' batch' stage' events)
    (hdepth : 0 < depth) (hsmooth : stage.isSmooth = true) (hunharmed : stage' ≠ .abandoned)
    (hbusy : stage.isBusy = true) : batch'.queue = [] ∨ stage'.isBusy = true := by
  cases h with
  | drained hempty =>
    exact .inl ((List.take_eq_nil_iff.mp hempty).resolve_left (Nat.ne_of_gt hdepth))
  | panicked => exact absurd rfl hunharmed
  | failed => cases hsmooth
  | gaveUp | timedOut | reused | reserved | connected | connectFailed | connectPanicked
  | released => cases hbusy
  | sent =>
    rw [WorkerStage.isBusy, WorkerStage.isEarly_dispatch, WorkerStage.isDone_dispatch]
    exact .inr rfl
  | sendFailed | reported =>
    rw [WorkerStage.isBusy, WorkerStage.isEarly_await, WorkerStage.isDone_await]
    exact .inr rfl
  | _ => exact .inr rfl

end

namespace Run

variable {config : Config} {run : Run config} {id n m : Nat} {items : List BatchItem}
  {batch batch' : Batch} {collector collector' : Collector} {workers workers' : List WorkerStage}

/-- **Once somebody is at work on the queue** it is emptied or somebody goes on. -/
theorem Led.attended_next {events : Log} (hcalm : run.Calm id items) (hunfailed : run.Unfailed id)
    (hled : run.Led id n batch collector workers)
    (hled' : run.Led id (n + 1) batch' collector' workers')
    (hturn : Turn id (run.world n).machine.workerLimit (run.world n).machine.depth
      (run.world n).machine.config.acquireTimeoutMs batch collector workers batch' collector'
      workers' events)
    (hlaunched : collector.stage ≠ .launching) (h : Attended batch workers) :
    collector'.stage ≠ .launching ∧ Attended batch' workers' := by
  cases hturn with
  | rest => exact ⟨hlaunched, h⟩
  | launch hstage => exact absurd hstage hlaunched
  | lead _ hmove =>
    obtain ⟨-, hqueue⟩ := hmove.hired_eq hlaunched
    exact ⟨hmove.not_launching hled.ledger.1, h.imp (hqueue.trans ·) fun hbusy => hbusy⟩
  | stop hmove =>
    obtain ⟨aborts, rfl⟩ := hmove.aborts_only (hcalm.uncancelled (n + 1) _ hled'.batch_eq)
    exact ⟨hlaunched, h⟩
  | @work before after stage stage' _ _ _ _ hmove =>
    refine ⟨hlaunched, ?_⟩
    rcases h with hempty | ⟨worker, hmem, hbusy⟩
    · exact .inl (hmove.queue_empty hempty)
    · rcases mem_around.mp hmem with hother | rfl
      · exact .inr ⟨worker, mem_around.mpr (.inl hother), hbusy⟩
      · have hunharmed := hled'.ne_abandoned hcalm.unharmed (mem_around.mpr (.inr rfl))
        have hsmooth := (hled.smooth hcalm hunfailed hlaunched).crew worker hmem
        exact (hmove.attended (Nat.le_max_right _ _) hsmooth hunharmed hbusy).imp_right
          fun hbusy' => ⟨stage', mem_around.mpr (.inr rfl), hbusy'⟩

/-- **When the leader is over everything is delivered**, if somebody got a connection. -/
theorem Led.completed (hcalm : run.Calm id items) (hunfailed : run.Unfailed id)
    (h : run.Led id n batch collector workers) (hover : collector.isOver = true)
    (hattended : Attended batch workers) :
    (((run.world n).log.told id).map Delivery.key).Perm (keysOf batch.items) ∧
      collector.stage = .finished (.ok (.complete collector.completed collector.errors)) := by
  obtain ⟨result, hfinished⟩ := h.finished hcalm.unharmed hover
  have hending : collector.stage.isEnding = true := by
    rw [hfinished]
    rfl
  have hsmooth := h.smooth hcalm hunfailed (by rw [hfinished]; exact nofun)
  have hledger := h.ledger.2.1
  have hqueue : batch.queue = [] := by
    refine hattended.resolve_right fun hbusy => ?_
    obtain ⟨worker, hmem, hbusy⟩ := hbusy
    have hdone := WorkerStage.isDone_of_isOver ((hsmooth.ending hending).2 worker hmem)
    rw [WorkerStage.isBusy, hdone, Bool.not_true, Bool.and_false] at hbusy
    cases hbusy
  have hperm := hsmooth.delivered hledger hending hqueue
  have hlength := hperm.length_eq
  rw [List.length_map, keysOf, List.length_map] at hlength
  have hshortfall : collector.shortfall? batch = none := by
    rw [Collector.shortfall?, hledger.answeredCount_eq, hlength, if_neg (Nat.lt_irrefl _)]
  refine ⟨hperm, ?_⟩
  rw [hfinished, hsmooth.ended result hfinished, hshortfall]
  rfl

/-- **A batch of which a worker gets a connection comes to its complete end.** -/
theorem Connects.completes (h : run.Connects id) (hcalm : run.Calm id items)
    (hunfailed : run.Unfailed id) :
    ∃ n batch deliveries, (run.world n).machine.batches[id]? = some batch ∧ batch.items = items ∧
      (deliveries.map Delivery.key).Perm (keysOf items) ∧
      ∀ m, n ≤ m → (run.world m).log.callbacks id = callbacksOf deliveries (some (.complete
        (deliveries.filterMap Delivery.response?) (deliveries.filterMap Delivery.error?))) := by
  obtain ⟨start, worker, conn, hmem, hconn⟩ := h
  obtain ⟨batch, collector, hled⟩ := led_of_worker hmem
  have hlaunched : collector.stage ≠ .launching := by
    intro hstage
    rw [(hled.launching hstage).workers_eq] at hmem
    exact List.not_mem_nil hmem
  have hsmooth := hled.smooth hcalm hunfailed hlaunched
  have hattended : Attended batch ((run.world start).machine.workers id) := by
    have hworker := hsmooth.crew worker hmem
    cases worker with
    | acquiring | connecting | finished | abandoned => cases hconn
    | failing => cases hworker
    | releasing => exact .inl (hsmooth.spent _ hmem rfl)
    | _ => exact .inr ⟨_, hmem, rfl⟩
  obtain ⟨last, _, _, _, hled₁, hover⟩ := hled.eventually_over hcalm.fair
  obtain ⟨batch', collector', workers', hled', -, hattended'⟩ :=
    hled.forward (P := fun _ batch collector workers =>
      collector.stage ≠ .launching ∧ Attended batch workers) ⟨hlaunched, hattended⟩
      (fun hled hled' _ hturn h => hled.attended_next hcalm hunfailed hled' hturn h.1 h.2)
      (Nat.le_max_left start last)
  obtain ⟨_, _, hled₂, -⟩ := hled₁.quiet hover (Nat.le_max_right start last)
  obtain ⟨-, rfl, -⟩ := hled'.unique hled₂
  obtain ⟨hperm, hfinished⟩ := hled'.completed hcalm hunfailed hover hattended'
  have hitems := hcalm.items_eq hled'
  obtain ⟨-, hledger, hcallbacks⟩ := hled'.ledger
  refine ⟨_, batch', _, hled'.batch_eq, hitems, hitems ▸ hperm, fun m hm => ?_⟩
  obtain ⟨_, _, -, hsame⟩ := hled'.quiet hover hm
  rw [hsame, hcallbacks, Collector.result?, hfinished, hledger.completed_eq, hledger.errors_eq]

end Run

/-! ## 3. What is delivered -/

/-- The items of a batch are delivered in full: the user is told one outcome for each key, and that
the batch is complete. -/
structure World.Completes (world : World) (id : Nat) (items : List BatchItem)
    (deliveries : List Delivery) : Prop where
  told : world.log.callbacks id = callbacksOf deliveries (some (.complete
    (deliveries.filterMap Delivery.response?) (deliveries.filterMap Delivery.error?)))
  perm : (deliveries.map Delivery.key).Perm (keysOf items)
  /-- The outcome of an item is what the endpoint's answer to its request decodes to. -/
  answered : ∀ endpoint, world.log.AnsweredBy endpoint → ∀ item ∈ items, ∃ frame,
    world.Answers endpoint (.item id item.key) frame ∧ WorkerStage.delivery item frame ∈ deliveries
  /-- If the endpoint's answers depend on the request only, then so do the outcomes. -/
  determined : ∀ answer : Bytes → Bytes, world.log.AnsweredBy (fun _ _ => answer) →
    (∀ conn, ¬ world.log.Struck conn) →
      deliveries.Perm (items.map fun item => WorkerStage.delivery item (answer item.request.frame))

section

variable {config : Config} {world : World} {id : Nat} {batch : Batch} {deliveries : List Delivery}

/-- A delivery under the key of an item is what the endpoint's answer to the item gives. -/
theorem World.Reachable.outcome (h : Reachable config world)
    (hbatch : world.machine.batches[id]? = some batch) {item : BatchItem} {delivery : Delivery}
    (hitem : item ∈ batch.items) (htold : .delivery delivery ∈ world.log.callbacks id)
    (hkey : delivery.key = item.key) {endpoint : ConnId → List Bytes → Bytes → Bytes}
    (hanswered : world.log.AnsweredBy endpoint) :
    ∃ frame, world.Answers endpoint (.item id item.key) frame ∧
      delivery = WorkerStage.delivery item frame := by
  obtain ⟨batch', item', frame, hbatch', hitem', hdecoded, rfl⟩ := h.tells htold
  cases hbatch.symm.trans hbatch'
  have hkeys := ((h.holds Team.Balanced.lasting).teams id _ (Machine.team?_eq hbatch)).keys_nodup
  rw [WorkerStage.key_delivery] at hkey
  obtain rfl : item' = item := List.inj_on_of_nodup_map hkeys hitem' hitem hkey
  obtain ⟨conn, hreceived⟩ := h.received.decoded _ frame hdecoded
  exact ⟨frame, h.answers hanswered hreceived, rfl⟩

/-- **What is delivered is determined by the answers of the endpoint.** -/
theorem World.Reachable.completes (h : Reachable config world)
    (hbatch : world.machine.batches[id]? = some batch)
    (hperm : (deliveries.map Delivery.key).Perm (keysOf batch.items))
    (htold : world.log.callbacks id = callbacksOf deliveries (some (.complete
      (deliveries.filterMap Delivery.response?) (deliveries.filterMap Delivery.error?)))) :
    world.Completes id batch.items deliveries := by
  have hkeys := ((h.holds Team.Balanced.lasting).teams id _ (Machine.team?_eq hbatch)).keys_nodup
  have houtcome : ∀ endpoint, world.log.AnsweredBy endpoint → ∀ item ∈ batch.items, ∃ frame,
      world.Answers endpoint (.item id item.key) frame ∧
        WorkerStage.delivery item frame ∈ deliveries := by
    intro endpoint hanswered item hitem
    have hmem : item.key ∈ deliveries.map Delivery.key :=
      hperm.mem_iff.mpr (List.mem_map_of_mem hitem)
    obtain ⟨delivery, hdelivery, hkey⟩ := List.mem_map.mp hmem
    have hcallback : .delivery delivery ∈ world.log.callbacks id := by
      rw [htold]
      exact List.mem_append_left _ (List.mem_map_of_mem hdelivery)
    obtain ⟨frame, hanswer, rfl⟩ := h.outcome hbatch hitem hcallback hkey hanswered
    exact ⟨frame, hanswer, hdelivery⟩
  refine ⟨htold, hperm, houtcome, fun answer hanswered hunstruck => ?_⟩
  have hsubset : batch.items.map (fun item => WorkerStage.delivery item (answer item.request.frame))
      ⊆ deliveries := by
    refine List.forall_mem_map.mpr fun item hitem => ?_
    obtain ⟨frame, ⟨conn, k, -, hanswer⟩, hmem⟩ := houtcome _ hanswered item hitem
    obtain ⟨request, -, honly, -, rfl⟩ := hanswer (hunstruck conn)
    rw [honly _ (.item hbatch hitem)]
    exact hmem
  have hnodup : (batch.items.map fun item =>
      WorkerStage.delivery item (answer item.request.frame)).Nodup := by
    refine List.Nodup.of_map Delivery.key ?_
    rw [List.map_map]
    have hsame : batch.items.map (Delivery.key ∘ fun item =>
        WorkerStage.delivery item (answer item.request.frame)) = keysOf batch.items :=
      List.map_congr_left fun item _ => WorkerStage.key_delivery
    exact hsame ▸ hkeys
  have hlength := hperm.length_eq
  rw [List.length_map, keysOf, List.length_map] at hlength
  refine ((hnodup.subperm hsubset).perm_of_length_le ?_).symm
  rw [List.length_map]
  exact Nat.le_of_eq hlength

end

/-! ## 4. Without any connection -/

/-- How a worker fails to get a connection: it has waited for the given time, or none can be
opened. -/
inductive WorkerStage.Unserved (timeoutMs : Nat) (events : Log) : WorkerStage → Error → Prop
  | timedOut : Unserved timeoutMs events .acquiring (.poolTimeout timeoutMs)
  | refused {error : Error} (answer : .exchange none .connect (.failed error) ∈ events) :
    Unserved timeoutMs events .connecting error

section

variable {id depth timeoutMs : Nat} {pool pool' : Pool} {batch batch' : Batch}
  {stage stage' : WorkerStage} {events : List Event}

/-- A response to an item is an answer. -/
theorem Log.answered_of_received {log : Log} {conn : ConnId} {key : String} {frame : Bytes}
    (h : (.item id key, frame) ∈ log.receivedOn conn) :
    (.receive conn, .received frame) ∈ log.answered id := by
  obtain ⟨event, hevent, hself⟩ := List.mem_filterMap.mp h
  refine List.mem_filterMap.mpr ⟨event, hevent, ?_⟩
  split at hself
  · split at hself
    · cases hself
      subst conn
      exact if_pos rfl
    · cases hself
  · cases hself

/-- Who has no connection sends and receives nothing. -/
theorem WorkerMove.answered_of_unheld
    (h : WorkerMove id depth timeoutMs pool batch stage pool' batch' stage' events)
    (hunheld : (stage.grip id).conn? = none) : Log.answered events id = [] := by
  cases h with
  | sent | sendFailed | received | receiveFailed => cases hunheld
  | panicked hholding => cases hholding.symm.trans hunheld
  | released => exact answered_giveBackEvents
  | _ => rfl

/-- A worker that gets no connection leaves the error in the batch. -/
theorem WorkerMove.unserved
    (h : WorkerMove id depth timeoutMs pool batch stage pool' batch' stage' events)
    (hgoing : batch.isStopping = false) (hunheld : (stage.grip id).conn? = none)
    (hunharmed : stage' ≠ .abandoned) :
    (stage' ≠ .finished ∧ batch'.acquireError = batch.acquireError) ∨
      ∃ error, stage' = .finished ∧ batch'.acquireError = some error ∧
        stage.Unserved timeoutMs events error := by
  cases h with
  | gaveUp hstopping => exact absurd (hstopping.symm.trans hgoing) (by simp)
  | timedOut => exact .inr ⟨_, rfl, rfl, .timedOut⟩
  | connectFailed => exact .inr ⟨_, rfl, rfl, .refused (List.mem_cons_self ..)⟩
  | connectPanicked => exact absurd rfl hunharmed
  | reused | reserved | connected => exact .inl ⟨nofun, rfl⟩
  | panicked hholding => cases hholding.symm.trans hunheld
  | @released _ broken => cases broken <;> cases hunheld
  | _ => cases hunheld

theorem CollectorMove.acquireError_eq {limit hired : Nat} {crew : Crew}
    {collector collector' : Collector}
    (h : CollectorMove id limit crew batch collector batch' collector' hired events) :
    batch'.acquireError = batch.acquireError := by
  cases h <;> rfl

end

namespace Run

variable {config : Config} {run : Run config} {id n m : Nat} {items : List BatchItem}
  {batch batch' : Batch} {collector collector' : Collector} {workers workers' : List WorkerStage}

/-- At this moment a worker of the batch ends without a connection, with this error. -/
def EmptyHanded (run : Run config) (id n : Nat) (error : Error) : Prop :=
  ∃ before after stage events, (run.world n).machine.workers id = before ++ stage :: after ∧
    (run.world (n + 1)).machine.workers id = before ++ .finished :: after ∧
    (run.world (n + 1)).log = (run.world n).log ++ events ∧
    stage.Unserved config.acquireTimeoutMs events error

/-- A batch for which nobody gets a connection, from its launch on. -/
structure Barren (run : Run config) (id : Nat) (batch : Batch) (workers : List WorkerStage) :
    Prop where
  hired : workers ≠ []
  refused : .finished ∈ workers → batch.acquireError ≠ none
  known : ∀ error ∈ batch.acquireError, ∃ k, run.EmptyHanded id k error

theorem unheld_of_not_connects (h : ¬ run.Connects id) {worker : WorkerStage}
    (hmem : worker ∈ (run.world n).machine.workers id) : (worker.grip id).conn? = none := by
  cases hconn : (worker.grip id).conn? with
  | none => rfl
  | some conn => exact absurd ⟨n, worker, conn, hmem, hconn⟩ h

/-- **Without a connection nothing is sent.** -/
theorem answered_of_not_connects (h : ¬ run.Connects id) (n : Nat) :
    (run.world n).log.answered id = [] := by
  cases hworkers : (run.world n).machine.workers id with
  | nil => exact (run.reachable n).answered_eq_nil hworkers
  | cons worker workers =>
    obtain ⟨batch, collector, hled⟩ := led_of_worker (hworkers ▸ List.mem_cons_self ..)
    refine led_induct run id (P := fun n _ _ _ => (run.world n).log.answered id = [])
      (fun hled hstage => (hled.launching hstage).answered_eq)
      (fun {n batch collector workers batch' collector' workers' events} hled hled' hlog hturn hnone
        => ?_) hled
    rw [(log_next id hlog).1, hnone, List.nil_append]
    cases hturn with
    | rest _ hunanswered => exact hunanswered
    | launch _ _ _ hunanswered => exact hunanswered
    | lead _ hmove => exact hmove.answered_eq
    | stop hmove => exact hmove.answered_eq
    | work hmove =>
      refine hmove.answered_of_unheld (unheld_of_not_connects (n := n) h ?_)
      rw [hled.workers_eq]
      exact mem_around.mpr (.inr rfl)

theorem unfailed_of_not_connects (h : ¬ run.Connects id) : run.Unfailed id := by
  intro n
  rw [answered_of_not_connects h]
  exact List.forall_mem_nil _

/-- **Without a connection nothing is delivered.** -/
theorem told_of_not_connects (h : ¬ run.Connects id) (n : Nat) :
    (run.world n).log.told id = [] := by
  refine List.eq_nil_iff_forall_not_mem.mpr fun delivery htold => ?_
  obtain ⟨callback, hmem, hself⟩ := List.mem_filterMap.mp htold
  cases callback with
  | terminal => cases hself
  | delivery made =>
    obtain ⟨_, item, frame, -, -, hdecoded, -⟩ := (run.reachable n).tells hmem
    obtain ⟨conn, hreceived⟩ := (run.reachable n).received.decoded _ frame hdecoded
    have hanswered := Log.answered_of_received hreceived
    rw [answered_of_not_connects h] at hanswered
    exact List.not_mem_nil hanswered

/-- **A batch for which nobody gets a connection** keeps the error of somebody who came back. -/
theorem Led.barren (hcalm : run.Calm id items) (hitems : items ≠ [])
    (hlimit : 1 ≤ config.batchConnections) (h : ¬ run.Connects id)
    (hled : run.Led id n batch collector workers) (hlaunched : collector.stage ≠ .launching) :
    run.Barren id batch workers := by
  refine led_induct run id (P := fun n batch collector workers =>
    collector.stage ≠ .launching → run.Barren id batch workers)
    (fun _ hstage hlaunched => absurd hstage hlaunched)
    (fun {n batch collector workers batch' collector' workers' events} hled hled' hlog hturn h'
      hlaunched' => ?_) hled hlaunched
  cases hturn with
  | rest => exact h' hlaunched'
  | launch hstage =>
    have hpos : 0 < min (run.world n).machine.workerLimit batch.items.length := by
      refine Nat.lt_min.mpr ⟨(run.reachable n).workerLimit_pos hlimit, ?_⟩
      rw [hcalm.items_eq hled]
      exact List.length_pos_iff.mpr hitems
    refine ⟨?_, fun hmem => ?_, fun error hmem => ?_⟩
    · rw [Ne, List.replicate_eq_nil_iff]
      exact Nat.ne_of_gt hpos
    · cases List.eq_of_mem_replicate hmem
    · cases (hled.launching hstage).acquireError_eq.symm.trans hmem
  | lead hstage hmove =>
    obtain ⟨hhired, hrefused, hknown⟩ := h' hstage
    rw [← hmove.acquireError_eq] at hrefused hknown
    exact ⟨hhired, hrefused, hknown⟩
  | @work before after stage stage' _ _ _ _ hmove =>
    obtain ⟨hhired, hrefused, hknown⟩ := h' hlaunched'
    have hself : stage ∈ before ++ stage :: after := mem_around.mpr (.inr rfl)
    have hrunning :=
      (hled.smooth hcalm (unfailed_of_not_connects h) hlaunched').not_halted hself hmove.not_over
    have hgoing :=
      Batch.isStopping_eq_false (hcalm.uncancelled n batch hled.batch_eq) hrunning.1
    have hunheld := unheld_of_not_connects (n := n) h (hled.workers_eq ▸ hself)
    rcases hmove.unserved hgoing hunheld
        (hled'.ne_abandoned hcalm.unharmed (mem_around.mpr (.inr rfl))) with
      ⟨hunfinished, hsame⟩ | ⟨error, rfl, hsome, hunserved⟩
    · refine ⟨by simp, fun hmem => ?_, hsame ▸ hknown⟩
      rw [hsame]
      exact hrefused (mem_around.mpr (.inl ((mem_around.mp hmem).resolve_right hunfinished.symm)))
    · refine ⟨by simp, fun _ => by simp [hsome], fun error' hmem => ⟨n, ?_⟩⟩
      cases hsome.symm.trans hmem
      rw [(run.reachable n).config_eq] at hunserved
      exact ⟨before, after, stage, events, hled.workers_eq, hled'.workers_eq, hlog, hunserved⟩
  | stop hmove =>
    obtain ⟨aborts, rfl⟩ := hmove.aborts_only (hcalm.uncancelled (n + 1) _ hled'.batch_eq)
    obtain ⟨hhired, hrefused, hknown⟩ := h' hlaunched'
    exact ⟨hhired, hrefused, hknown⟩

/-- **A batch for which nobody gets a connection fails** with the error of somebody who came back. -/
theorem fails_of_not_connects (h : ¬ run.Connects id) (hcalm : run.Calm id items)
    (hitems : items ≠ []) (hlimit : 1 ≤ config.batchConnections) :
    ∃ n error k, run.EmptyHanded id k error ∧
      ∀ m, n ≤ m → (run.world m).log.callbacks id = [.terminal (.failure error [])] := by
  obtain ⟨_, _, _, _, hled₀, -⟩ := hcalm.led
  obtain ⟨last, batch, collector, workers, hled, hover⟩ := hled₀.eventually_over hcalm.fair
  obtain ⟨result, hfinished⟩ := hled.finished hcalm.unharmed hover
  have hlaunched : collector.stage ≠ .launching := by rw [hfinished]; exact nofun
  have hsmooth := hled.smooth hcalm (unfailed_of_not_connects h) hlaunched
  obtain ⟨hhired, hrefused, hknown⟩ := hled.barren hcalm hitems hlimit h hlaunched
  -- All workers have come back, so one of them has left its error.
  have hfinishedWorker : .finished ∈ workers := by
    obtain ⟨worker, hmem⟩ := List.exists_mem_of_ne_nil _ hhired
    have hworker := (hsmooth.ending (by rw [hfinished]; rfl)).2 worker hmem
    cases worker with
    | finished => exact hmem
    | abandoned => exact absurd rfl (hled.ne_abandoned hcalm.unharmed hmem)
    | _ => cases hworker
  obtain ⟨error, herror⟩ := Option.ne_none_iff_exists'.mp (hrefused hfinishedWorker)
  obtain ⟨-, hledger, hcallbacks⟩ := hled.ledger
  have htold := told_of_not_connects h last
  have hcount := hledger.answeredCount_eq
  have hcompleted := hledger.completed_eq
  rw [htold] at hcallbacks hcount hcompleted
  have hshort : collector.answeredCount < batch.items.length := by
    rw [hcount, hcalm.items_eq hled]
    exact List.length_pos_iff.mpr hitems
  have hresult : result = .failure error [] := by
    rw [hsmooth.ended result hfinished, Collector.shortfall?, if_pos hshort, herror]
    exact congrArg (BatchEnd.failure error) hcompleted
  obtain ⟨k, hempty⟩ := hknown error herror
  refine ⟨last, error, k, hempty, fun m hm => ?_⟩
  obtain ⟨_, _, -, hsame⟩ := hled.quiet hover hm
  rw [hsame, hcallbacks, Collector.result?, hfinished, hresult]
  rfl

/-- **A batch completes whatever its tuning.**  If one of its workers gets a connection, and no send
or receive fails, everything is delivered, and then nothing more is told.  If none does nothing is
sent or delivered, and the batch fails with the error of a worker that came back with nothing. -/
theorem batch_completes (hcalm : run.Calm id items) (hitems : items ≠ [])
    (hlimit : 1 ≤ config.batchConnections) :
    (run.Connects id → run.Unfailed id → ∃ n deliveries,
      (run.world n).Completes id items deliveries ∧
        ∀ m, n ≤ m → (run.world m).log.callbacks id = (run.world n).log.callbacks id) ∧
    (¬ run.Connects id →
      (∀ n, (run.world n).log.answered id = [] ∧ (run.world n).log.told id = []) ∧
        ∃ n error k, run.EmptyHanded id k error ∧
          ∀ m, n ≤ m → (run.world m).log.callbacks id = [.terminal (.failure error [])]) := by
  refine ⟨fun hconnects hunfailed => ?_, fun hconnects => ⟨fun n => ?_, ?_⟩⟩
  · obtain ⟨n, batch, deliveries, hbatch, rfl, hperm, htold⟩ :=
      hconnects.completes hcalm hunfailed
    refine ⟨n, deliveries, (run.reachable n).completes hbatch hperm (htold n (Nat.le_refl n)),
      fun m hm => ?_⟩
    rw [htold m hm, htold n (Nat.le_refl n)]
  · exact ⟨answered_of_not_connects hconnects n, told_of_not_connects hconnects n⟩
  · exact fails_of_not_connects hconnects hcalm hitems hlimit

/-! ## 5. A worker that is refused -/

/-- One of two workers cannot open a connection, and the other exchanges both items. -/
def oneRefused : List Label :=
  .order .newBatch :: (pings ["a", "b"]).map (.order <| .addItem 0 ·) ++
    [.order (.collect 0), .advance 0, .advance 0, .advance 1, .answer 1 (.failed (.io "refused")),
      .advance 2, .answer 2 .connected, .advance 2, .advance 2, .advance 2, .answer 2 .sent,
      .answer 2 .sent, .answer 2 (.received []), .advance 2, .answer 2 (.received []), .advance 2,
      .advance 2, .advance 2, .advance 2] ++ List.replicate 10 (.advance 0)

/-- The only worker cannot open a connection. -/
def allRefused : List Label :=
  .order .newBatch :: (pings ["a"]).map (.order <| .addItem 0 ·) ++
    [.order (.collect 0), .advance 0, .advance 0, .advance 1,
      .answer 1 (.failed (.io "refused"))] ++ List.replicate 4 (.advance 0)

theorem oneRefused_possible :
    ((World.new { batchConnections := 2 }).after oneRefused).isSome = true := by decide

theorem allRefused_possible :
    ((World.new { batchConnections := 1 }).after allRefused).isSome = true := by decide

/-- A run of labels in which nobody panics and nobody cancels is calm. -/
theorem Calm.ofLabels {labels : List Label}
    (hpossible : ((World.new config).after labels).isSome = true)
    (hlast : (ofLabels config labels hpossible).Serves id (labels.length - 1))
    (hover : ∀ task ∈ ((ofLabels config labels hpossible).world labels.length).machine.tasks,
      task.isOver = true)
    (hcalm : ∀ n ≤ labels.length, ((ofLabels config labels hpossible).world n).isCalm id = true)
    (hstarted : ∃ n batch, ((ofLabels config labels hpossible).world n).machine.batches[id]? =
      some batch ∧ batch.started = true ∧ batch.items = items) :
    (ofLabels config labels hpossible).Calm id items :=
  have h := calm_ofLabels hpossible hcalm
  ⟨fair_ofLabels hpossible hlast hover, h.1, h.2, hstarted⟩

theorem oneRefused_calm : (ofLabels _ oneRefused oneRefused_possible).Calm 0 (pings ["a", "b"]) :=
  Calm.ofLabels oneRefused_possible ⟨.advance 0, by rfl, by decide⟩ (by decide) (by decide)
    ⟨5, _, rfl, rfl, rfl⟩

theorem allRefused_calm : (ofLabels _ allRefused allRefused_possible).Calm 0 (pings ["a"]) :=
  Calm.ofLabels allRefused_possible ⟨.advance 0, by rfl, by decide⟩ (by decide) (by decide)
    ⟨4, _, rfl, rfl, rfl⟩

theorem oneRefused_unfailed : (ofLabels _ oneRefused oneRefused_possible).Unfailed 0 := by
  intro n exchange hmem error
  obtain ⟨more, hmore⟩ := answered_ofLabels oneRefused_possible 0 n
  have hall : (((ofLabels _ oneRefused oneRefused_possible).world oneRefused.length).log.answered
      0).map Prod.snd = [.sent, .sent, .received [], .received []] := by rfl
  have hanswer : exchange.2 ∈ [Answer.sent, .sent, .received [], .received []] := by
    rw [← hall, hmore]
    exact List.mem_map_of_mem (List.mem_append_left _ hmem)
  rintro hfailed
  rw [hfailed] at hanswer
  simp at hanswer

theorem allRefused_unconnected : ¬ (ofLabels _ allRefused allRefused_possible).Connects 0 := by
  rintro ⟨n, worker, conn, hmem, hconn⟩
  have hall := forall_ofLabels allRefused_possible
    (P := fun world => (world.machine.workers 0).all (·.grip 0 |>.conn?.isNone) = true)
    (by decide) n
  have hnone := List.all_eq_true.mp hall worker hmem
  rw [hconn] at hnone
  cases hnone

/-- One of two workers is refused a connection, and the batch is complete; the only worker is
refused, and the batch fails. -/
theorem batch_completes_refused :
    (∃ run : Run { batchConnections := 2 }, run.Calm 0 (pings ["a", "b"]) ∧ run.Connects 0 ∧
      run.Unfailed 0 ∧ ∃ n deliveries,
        (run.world n).Completes 0 (pings ["a", "b"]) deliveries ∧
          ∀ m, n ≤ m → (run.world m).log.callbacks 0 = (run.world n).log.callbacks 0) ∧
    ∃ run : Run { batchConnections := 1 }, run.Calm 0 (pings ["a"]) ∧ ¬ run.Connects 0 ∧
      (∀ n, (run.world n).log.answered 0 = [] ∧ (run.world n).log.told 0 = []) ∧
        ∃ n error k, run.EmptyHanded 0 k error ∧
          ∀ m, n ≤ m → (run.world m).log.callbacks 0 = [.terminal (.failure error [])] := by
  have hconnects : (ofLabels _ oneRefused oneRefused_possible).Connects 0 :=
    ⟨10, .leased 1, 1, List.mem_of_getElem? (i := 1) rfl, rfl⟩
  refine ⟨⟨_, oneRefused_calm, hconnects, oneRefused_unfailed, ?_⟩,
    ⟨_, allRefused_calm, allRefused_unconnected, ?_⟩⟩
  · exact (batch_completes oneRefused_calm (by decide) (by decide)).1 hconnects oneRefused_unfailed
  · exact (batch_completes allRefused_calm (by decide) (by decide)).2 allRefused_unconnected

end Run

end RemoteCall.Client
