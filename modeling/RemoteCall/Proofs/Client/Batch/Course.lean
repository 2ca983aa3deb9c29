/-
# The course of a batch

A batch that is led goes from moment to moment of a run in one of five ways (`Turn`): nothing happens
to it, it is launched, its leader takes another step, one of its workers does, or a cancellation
does.  It begins with a leader that is about to launch it, and then nothing has been done for it yet
(`Run.Led.launching`).
So what holds of a batch about to be launched and is kept by every turn holds as long as the batch is
led (`Run.led_induct`), and the proof may use whatever is known of the run.

Batches are followed so, and not by what lasts for every team, where the hypotheses are about a whole
run: that the batch is never cancelled, or that what was answered up to any moment follows a rule.
-/
import RemoteCall.Proofs.Client.Life.Steps

namespace RemoteCall.Client

/-! ## 1. Where workers stand -/

namespace WorkerStage

/-- Whether the worker has no connection yet. -/
def isEarly : WorkerStage → Bool
  | acquiring | connecting => true
  | _ => false

/-- Whether the worker has made all its reports. -/
def isDone : WorkerStage → Bool
  | releasing _ _ | finished | abandoned => true
  | _ => false

theorem isDone_of_isOver {stage : WorkerStage} (h : stage.isOver = true) : stage.isDone = true := by
  cases stage <;> first | rfl | cases h

theorem isEarly_await {conn : ConnId} {slot : Nat} {waiting : List BatchItem}
    {sendError : Option Error} : (await conn slot waiting sendError).isEarly = false := by
  unfold await
  split <;> rfl

theorem isEarly_dispatch {conn : ConnId} {slot : Nat} {sent todo : List BatchItem} :
    (dispatch conn slot sent todo).isEarly = false := by
  unfold dispatch
  split
  · exact isEarly_await
  · rfl

theorem isDone_await {conn : ConnId} {slot : Nat} {waiting : List BatchItem}
    {sendError : Option Error} : (await conn slot waiting sendError).isDone = false := by
  unfold await
  split <;> rfl

theorem isDone_dispatch {conn : ConnId} {slot : Nat} {sent todo : List BatchItem} :
    (dispatch conn slot sent todo).isDone = false := by
  unfold dispatch
  split
  · exact isDone_await
  · rfl

end WorkerStage

/-- Workers go on in a batch that is neither cancelled nor over. -/
theorem Batch.isStopping_eq_false {batch : Batch} (huncancelled : batch.cancelled = false)
    (hgoing : batch.halted = false) : batch.isStopping = false := by
  rw [isStopping, huncancelled, hgoing]
  rfl

/-- No worker comes to be without a connection. -/
theorem WorkerMove.early {id depth timeoutMs : Nat} {pool pool' : Pool} {batch batch' : Batch}
    {stage stage' : WorkerStage} {events : List Event}
    (h : WorkerMove id depth timeoutMs pool batch stage pool' batch' stage' events)
    (hearly : stage'.isEarly = true) : stage.isEarly = true := by
  cases h with
  | reserved => rfl
  | sent =>
    rw [WorkerStage.isEarly_dispatch] at hearly
    cases hearly
  | sendFailed | reported =>
    rw [WorkerStage.isEarly_await] at hearly
    cases hearly
  | _ => cases hearly

/-! ## 2. Before a batch is launched -/

/-- A batch that is not launched has no workers, and they have left nothing behind. -/
def Team.Fresh (team : Team) (_ : List Callback) : Prop :=
  (∀ collector ∈ team.leads, collector.stage = .launching) →
    team.workers = [] ∧ team.batch.halted = false ∧ team.batch.acquireError = none

/-- No step of a leader goes back to launching. -/
theorem CollectorMove.not_launching {id limit hired : Nat} {crew : Crew} {batch batch' : Batch}
    {collector collector' : Collector} {events : List Event} (hleads : collector.leads = true)
    (h : CollectorMove id limit crew batch collector batch' collector' hired events) :
    collector'.stage ≠ .launching := by
  cases h with
  | started => cases hleads
  | @delivered delivery => cases delivery <;> exact nofun
  | _ => exact nofun

/-- A collector that is launching a batch puts all items into the queue. -/
theorem CollectorMove.of_launching {id limit hired : Nat} {crew : Crew} {batch batch' : Batch}
    {collector collector' : Collector} {events : List Event}
    (h : CollectorMove id limit crew batch collector batch' collector' hired events)
    (hstage : collector.stage = .launching) :
    batch' = { batch with queue := batch.items } ∧ collector'.stage = .listening ∧
      hired = min limit batch.items.length ∧ Log.callbacks events id = [] := by
  cases h with
  | launched => exact ⟨rfl, rfl, rfl, rfl⟩
  | concluded hconcluding => cases hconcluding.symm.trans hstage
  | _ => cases hstage

/-- Workers are started when a batch is launched, and at no other time. -/
theorem CollectorMove.hired_eq {id limit hired : Nat} {crew : Crew} {batch batch' : Batch}
    {collector collector' : Collector} {events : List Event}
    (h : CollectorMove id limit crew batch collector batch' collector' hired events)
    (hstage : collector.stage ≠ .launching) : hired = 0 ∧ batch'.queue = batch.queue := by
  cases h with
  | launched => exact absurd rfl hstage
  | _ => exact ⟨rfl, rfl⟩

theorem Team.Fresh.lasting : Team.Lasting Team.Fresh where
  blank := fun _ => ⟨rfl, rfl, rfl⟩
  copied _ := fun _ => ⟨rfl, rfl, rfl⟩
  polled _ := fun _ => ⟨rfl, rfl, rfl⟩
  step := by
    intro id limit depth timeoutMs serving team team' callbacks events h hstep hlaunching
    cases hstep with
    | grow hallowed => exact h hlaunching
    | start before after hunstarted hleads =>
      refine h fun collector hmem => hlaunching collector ?_
      rw [hleads] at hmem
      exact mem_around.mpr (.inl hmem)
    | lead hself hleads hmove =>
      exact absurd (hlaunching _ (mem_around.mpr (.inr rfl))) (hmove.not_launching hleads)
    | work hself hmove =>
      have hnone := (h hlaunching).1
      rw [hself] at hnone
      exact absurd hnone (by simp)
    | stop hmove =>
      obtain ⟨hworkers, hhalted, herror⟩ := h hlaunching
      cases hmove <;> exact ⟨hworkers, hhalted, herror⟩

/-- Without workers nothing is answered. -/
theorem World.Reachable.answered_eq_nil {config : Config} {world : World}
    (h : Reachable config world) {id : Nat} (hworkers : world.machine.workers id = []) :
    world.log.answered id = [] := by
  rw [Machine.workers_eq] at hworkers
  refine @Reachable.induct config (fun machine log =>
    machine.tasks.filterMap (Task.worker? id) = [] → log.answered id = []) (fun _ => rfl)
    (fun {machine mover? machine' log events} _ hlog hstep hnone => ?_) world h hworkers
  have hkept : machine.tasks.filterMap (Task.worker? id) = [] ∧ Log.answered events id = [] := by
    cases hstep with
    | newCall | newBatch | addItem => exact ⟨hnone, rfl⟩
    | spawn | enqueue | poll =>
      exact ⟨(List.append_eq_nil_iff.mp (List.filterMap_append.symm.trans hnone)).1, rfl⟩
    | executing htasks hfound hmove =>
      rw [htasks, filterMap_around_none rfl]
      exact ⟨(filterMap_around_none rfl).symm.trans hnone, hmove.answered_eq⟩
    | cancelling htasks hfound hmove =>
      rw [htasks, filterMap_around_none rfl]
      refine ⟨(filterMap_around_none rfl).symm.trans hnone, ?_⟩
      cases hmove <;> rfl
    | collecting htasks hfound hmove =>
      have hbefore := (List.append_eq_nil_iff.mp (List.filterMap_append.symm.trans hnone)).1
      rw [htasks, filterMap_around_none rfl]
      exact ⟨(filterMap_around_none rfl).symm.trans hbefore, hmove.answered_eq⟩
    | @working before after other stage stage' batch batch' pool' events htasks hfound hmove =>
      have hother : other ≠ id := by
        rintro rfl
        rw [filterMap_around_some Task.worker?_self] at hnone
        exact absurd hnone (by simp)
      rw [htasks, filterMap_around_none (Task.worker?_of_ne hother)]
      exact ⟨(filterMap_around_none (Task.worker?_of_ne hother)).symm.trans hnone,
        hmove.answered_eq hother⟩
    | stopping htasks hfound hmove =>
      rw [htasks, filterMap_around_none rfl]
      exact ⟨(filterMap_around_none rfl).symm.trans hnone, hmove.answered_eq⟩
  rw [Log.answered_append, hlog hkept.1, hkept.2]
  rfl

/-! ## 3. What the user is told -/

/-- The delivery that a callback is. -/
def Callback.delivery? : Callback → Option Delivery
  | delivery made => some made
  | terminal _ => none

/-- What the user of a batch has been told of its items. -/
def Log.told (log : Log) (id : Nat) : List Delivery :=
  (log.callbacks id).filterMap Callback.delivery?

theorem Log.told_append {log events : Log} {id : Nat} :
    (log ++ events).told id = log.told id ++ events.told id := by
  unfold told
  rw [callbacks_append, List.filterMap_append]

theorem Log.told_of_callbacks {events : Log} {id : Nat} (h : events.callbacks id = []) :
    events.told id = [] := by
  rw [told, h, List.filterMap_nil]

theorem deliveries_callbacksOf (deliveries : List Delivery) (result? : Option BatchEnd) :
    (callbacksOf deliveries result?).filterMap Callback.delivery? = deliveries := by
  cases result? <;> simp [callbacksOf, List.filterMap_map, Function.comp_def, Callback.delivery?]

/-! ## 4. Turns -/

/-- What happens to a batch that is led from one moment to the next, with what is logged. -/
inductive Turn (id limit depth timeoutMs : Nat) (batch : Batch) (collector : Collector) :
    List WorkerStage → Batch → Collector → List WorkerStage → Log → Prop
  | rest {workers : List WorkerStage} {events : Log} (untold : events.callbacks id = [])
    (unanswered : events.answered id = []) :
    Turn id limit depth timeoutMs batch collector workers batch collector workers events
  | launch {collector' : Collector} {events : Log} (launching : collector.stage = .launching)
    (listening : collector'.stage = .listening) (untold : events.callbacks id = [])
    (unanswered : events.answered id = []) :
    Turn id limit depth timeoutMs batch collector [] { batch with queue := batch.items } collector'
      (List.replicate (min limit batch.items.length) .acquiring) events
  | lead {workers : List WorkerStage} {batch' : Batch} {collector' : Collector} {events : Log}
    (launched : collector.stage ≠ .launching)
    (move : CollectorMove id limit (Crew.of workers) batch collector batch' collector' 0 events) :
    Turn id limit depth timeoutMs batch collector workers batch' collector' workers events
  | work {before after : List WorkerStage} {stage stage' : WorkerStage} {pool pool' : Pool}
    {batch' : Batch} {events : Log}
    (move : WorkerMove id depth timeoutMs pool batch stage pool' batch' stage' events) :
    Turn id limit depth timeoutMs batch collector (before ++ stage :: after) batch' collector
      (before ++ stage' :: after) events
  | stop {workers : List WorkerStage} {stage stage' : StopStage} {batch' : Batch} {events : Log}
    (move : StopMove batch stage batch' stage' events) :
    Turn id limit depth timeoutMs batch collector workers batch' collector workers events

/-- A cancellation that does not cancel touches the registered connections only. -/
theorem StopMove.aborts_only {batch batch' : Batch} {stage stage' : StopStage} {events : List Event}
    (h : StopMove batch stage batch' stage' events) (huncancelled : batch'.cancelled = false) :
    ∃ aborts, batch' = { batch with aborts := aborts } := by
  cases h with
  | flagged => cases huncancelled
  | swept => exact ⟨_, rfl⟩
  | fired => exact ⟨_, rfl⟩

/-- A turn does not change the items of a batch. -/
theorem Turn.items_eq {id limit depth timeoutMs : Nat} {batch batch' : Batch}
    {collector collector' : Collector} {workers workers' : List WorkerStage} {events : Log}
    (hleads : collector.leads = true)
    (h : Turn id limit depth timeoutMs batch collector workers batch' collector' workers' events) :
    batch'.items = batch.items := by
  cases h with
  | rest | launch => rfl
  | lead _ hmove => exact (hmove.batch_frame hleads).1
  | work hmove => exact hmove.batch_frame.1
  | stop hmove => exact hmove.batch_frame.1

namespace Run

variable {config : Config} {run : Run config} {id n m : Nat} {batch : Batch}
  {collector : Collector} {workers : List WorkerStage}

theorem Led.batch_eq (h : run.Led id n batch collector workers) :
    (run.world n).machine.batches[id]? = some batch := by
  obtain ⟨batch', hbatch, hteam⟩ := Option.map_eq_some_iff.mp h.team_eq
  rw [hbatch, (Team.mk.inj hteam).1]

theorem Led.workers_eq (h : run.Led id n batch collector workers) :
    (run.world n).machine.workers id = workers := by
  obtain ⟨batch', -, hteam⟩ := Option.map_eq_some_iff.mp h.team_eq
  exact (Team.mk.inj hteam).2.2

/-- No worker of a batch that is unharmed has panicked. -/
theorem Led.ne_abandoned (h : run.Led id n batch collector workers) (hunharmed : run.Unharmed id)
    {worker : WorkerStage} (hmem : worker ∈ workers) : worker ≠ .abandoned := by
  rintro rfl
  refine hunharmed n ?_
  rw [h.workers_eq]
  exact hmem

theorem Led.crew_ne_panicked (h : run.Led id n batch collector workers)
    (hunharmed : run.Unharmed id) : Crew.of workers ≠ .panicked :=
  fun hpanicked => h.ne_abandoned hunharmed (Crew.abandoned_mem hpanicked) rfl

/-- **The books of a batch that is led** are about what its user has been told. -/
theorem Led.ledger (h : run.Led id n batch collector workers) :
    collector.leads = true ∧ Ledger batch workers collector ((run.world n).log.told id) ∧
      (run.world n).log.callbacks id =
        callbacksOf ((run.world n).log.told id) collector.result? := by
  have hbalanced := h.inOrder.1
  unfold Log.told
  generalize (run.world n).log.callbacks id = callbacks at hbalanced
  cases hbalanced with
  | running hkeys hstarted hleads hledger =>
    rw [deliveries_callbacksOf]
    exact ⟨hleads, hledger, rfl⟩

/-- At this moment nothing has been done for the batch. -/
structure Untouched (run : Run config) (id n : Nat) (batch : Batch) (workers : List WorkerStage) :
    Prop where
  workers_eq : workers = []
  halted_eq : batch.halted = false
  acquireError_eq : batch.acquireError = none
  channel_eq : batch.channel = []
  answered_eq : (run.world n).log.answered id = []
  told_eq : (run.world n).log.told id = []

/-- **Nothing has been done for a batch that is about to be launched.** -/
theorem Led.launching (h : run.Led id n batch collector workers)
    (hstage : collector.stage = .launching) : run.Untouched id n batch workers := by
  have hfresh : Team.Fresh ⟨batch, [collector], workers⟩ _ :=
    ((run.reachable n).holds Team.Fresh.lasting).teams id _ h.team_eq
  obtain ⟨hworkers, hhalted, herror⟩ := hfresh (List.forall_mem_singleton.mpr hstage)
  obtain ⟨htold, hchannel, -⟩ := h.ledger.2.1.blank hstage
  exact ⟨hworkers, hhalted, herror, hchannel,
    (run.reachable n).answered_eq_nil (h.workers_eq.trans hworkers), htold⟩

/-- The next moment's answers and deliveries. -/
theorem log_next (id : Nat) {events : Log}
    (hlog : (run.world (n + 1)).log = (run.world n).log ++ events) :
    (run.world (n + 1)).log.answered id = (run.world n).log.answered id ++ events.answered id ∧
      (run.world (n + 1)).log.told id = (run.world n).log.told id ++ events.told id := by
  rw [hlog]
  exact ⟨Log.answered_append, Log.told_append⟩

/-- The team of a batch for which somebody works. -/
theorem led_of_worker {worker : WorkerStage} (hmem : worker ∈ (run.world n).machine.workers id) :
    ∃ batch collector, run.Led id n batch collector ((run.world n).machine.workers id) := by
  have hne : (run.world n).machine.workers id ≠ [] := List.ne_nil_of_mem hmem
  have hid : id < (run.world n).machine.batches.length := by
    refine Nat.lt_of_not_le fun hid => hne ?_
    have htidy := ((run.reachable n).holds Team.Fresh.lasting).tidy
    rw [Machine.workers_eq]
    exact (htidy.nobody hid).2
  exact ⟨_, led_of_going (List.getElem?_eq_getElem hid) (.inr hne)⟩

/-- The batch is not cancelled at any moment. -/
def Uncancelled (run : Run config) (id : Nat) : Prop :=
  ∀ n batch, (run.world n).machine.batches[id]? = some batch → batch.cancelled = false

/-- A batch that is led takes a turn. -/
theorem Led.turn (h : run.Led id n batch collector workers) :
    ∃ batch' collector' workers' events, run.Led id (n + 1) batch' collector' workers' ∧
      (run.world (n + 1)).log = (run.world n).log ++ events ∧
      Turn id (run.world n).machine.workerLimit (run.world n).machine.depth
        (run.world n).machine.config.acquireTimeoutMs batch collector workers
        batch' collector' workers' events := by
  obtain ⟨team', events, serving, hteam', hlog, -, ⟨rfl, huntold, hunanswered, -⟩ | hmove⟩ :=
    team_next h.team_eq
  · exact ⟨_, _, _, events, ⟨hteam', h.started⟩, hlog, .rest huntold hunanswered⟩
  · have hstarted := hmove.started h.started
    cases hmove with
    | grow hallowed => simp [Batch.addFault?, h.started] at hallowed
    | start before after hunstarted =>
      exact absurd (h.started.symm.trans hunstarted) (by simp)
    | @lead before after leader _ _ _ _ hself hleads hmove =>
      obtain ⟨rfl, rfl, rfl⟩ := append_cons_eq_singleton hself.symm
      refine ⟨_, _, _, events, ⟨hteam', hstarted⟩, hlog, ?_⟩
      by_cases hstage : leader.stage = .launching
      · obtain rfl := (h.launching hstage).workers_eq
        obtain ⟨rfl, hlistening, rfl, huntold⟩ := hmove.of_launching hstage
        exact .launch hstage hlistening huntold hmove.answered_eq
      · obtain ⟨rfl, -⟩ := hmove.hired_eq hstage
        rw [List.replicate_zero, List.append_nil]
        exact .lead hstage hmove
    | work hself hmove =>
      cases hself
      exact ⟨_, _, _, events, ⟨hteam', hstarted⟩, hlog, .work hmove⟩
    | stop hmove => exact ⟨_, _, _, events, ⟨hteam', hstarted⟩, hlog, .stop hmove⟩

/-- A batch that is led at one moment only is what it is said to be. -/
theorem Led.unique {batch' : Batch} {collector' : Collector} {workers' : List WorkerStage}
    (h : run.Led id n batch collector workers) (h' : run.Led id n batch' collector' workers') :
    batch = batch' ∧ collector = collector' ∧ workers = workers' := by
  obtain ⟨hbatch, hleads, hworkers⟩ :=
    Team.mk.inj (Option.some.inj (h.team_eq.symm.trans h'.team_eq))
  exact ⟨hbatch, (List.cons.inj hleads).1, hworkers⟩

/-- A leader of a team that had none is about to launch the batch. -/
theorem launched_of_move {team : Team} {limit depth timeoutMs : Nat} {serving : Bool} {events : Log}
    (hleads : team.leads = []) (hworkers : team.workers = [])
    (h : TeamMove id limit depth timeoutMs team serving ⟨batch, [collector], workers⟩ events) :
    collector = .launched := by
  generalize hteam : (⟨batch, [collector], workers⟩ : Team) = team' at h
  cases h with
  | grow => exact absurd (hleads.symm.trans (congrArg Team.leads hteam).symm) (by simp)
  | start before after _ hself =>
    obtain ⟨rfl, rfl⟩ := List.append_eq_nil_iff.mp (hself.symm.trans hleads)
    exact (List.cons.inj (congrArg Team.leads hteam)).1
  | lead hself => exact absurd (hleads.symm.trans hself) (by simp)
  | work hself => exact absurd (hworkers.symm.trans hself) (by simp)
  | stop => exact absurd (hleads.symm.trans (congrArg Team.leads hteam).symm) (by simp)

/-- A batch that is led was led before, or is about to be launched. -/
theorem Led.before (h : run.Led id (n + 1) batch collector workers) :
    collector.stage = .launching ∨
      ∃ batch₀ collector₀ workers₀, run.Led id n batch₀ collector₀ workers₀ := by
  rcases run.next n with ⟨-, hsame⟩ | ⟨label, -, htaken⟩
  · exact .inr ⟨_, _, _, ⟨hsame ▸ h.team_eq, h.started⟩⟩
  · obtain ⟨events, hstep, -⟩ := World.step_ok htaken
    have hholds := (run.reachable n).holds Team.InOrder.lasting
    cases hteam : (run.world n).machine.team? id with
    | none =>
      have hid : (run.world n).machine.batches.length ≤ id :=
        List.getElem?_eq_none_iff.mp (Option.map_eq_none_iff.mp hteam)
      have hborn := hstep.team_born hholds.tidy hid h.team_eq
      cases hborn with
      | polled => exact .inl rfl
    | some team =>
      obtain ⟨hbalanced, -⟩ := hholds.teams id team hteam
      generalize (run.world n).log.callbacks id = callbacks at hbalanced
      cases hbalanced with
      | running _ hstarted => exact .inr ⟨_, _, _, ⟨hteam, hstarted⟩⟩
      | waiting =>
        obtain ⟨team', hteam', ⟨rfl, -⟩ | hmove⟩ := hstep.teamMove hholds.tidy hteam
        · cases hteam'.symm.trans h.team_eq
        · cases hteam'.symm.trans h.team_eq
          exact .inl (congrArg Collector.stage (launched_of_move rfl rfl hmove))

/-- **What holds of a batch that is about to be launched and is kept by every turn holds as long as
the batch is led.** -/
theorem led_induct (run : Run config) (id : Nat)
    {P : Nat → Batch → Collector → List WorkerStage → Prop}
    (hlaunching : ∀ {n batch collector workers}, run.Led id n batch collector workers →
      collector.stage = .launching → P n batch collector workers)
    (hturn : ∀ {n batch collector workers batch' collector' workers' events},
      run.Led id n batch collector workers → run.Led id (n + 1) batch' collector' workers' →
      (run.world (n + 1)).log = (run.world n).log ++ events →
      Turn id (run.world n).machine.workerLimit (run.world n).machine.depth
        (run.world n).machine.config.acquireTimeoutMs batch collector workers
        batch' collector' workers' events →
      P n batch collector workers → P (n + 1) batch' collector' workers') :
    ∀ {n batch collector workers}, run.Led id n batch collector workers →
      P n batch collector workers := by
  intro n
  induction n with
  | zero =>
    intro batch collector workers h
    have hteam := h.team_eq
    rw [run.starts] at hteam
    cases hteam
  | succ n ih =>
    intro batch collector workers h
    rcases h.before with hstage | ⟨batch₀, collector₀, workers₀, hled⟩
    · exact hlaunching h hstage
    · obtain ⟨batch', collector', workers', events, hled', hlog, hmove⟩ := hled.turn
      obtain ⟨rfl, rfl, rfl⟩ := h.unique hled'
      exact hturn hled hled' hlog hmove (ih hled)

/-- What holds of a batch at one moment and is kept by every turn holds from then on. -/
theorem Led.forward {P : Nat → Batch → Collector → List WorkerStage → Prop}
    (h : run.Led id n batch collector workers) (hnow : P n batch collector workers)
    (hturn : ∀ {n batch collector workers batch' collector' workers' events},
      run.Led id n batch collector workers → run.Led id (n + 1) batch' collector' workers' →
      (run.world (n + 1)).log = (run.world n).log ++ events →
      Turn id (run.world n).machine.workerLimit (run.world n).machine.depth
        (run.world n).machine.config.acquireTimeoutMs batch collector workers
        batch' collector' workers' events →
      P n batch collector workers → P (n + 1) batch' collector' workers')
    (hm : n ≤ m) :
    ∃ batch' collector' workers', run.Led id m batch' collector' workers' ∧
      P m batch' collector' workers' := by
  induction hm with
  | refl => exact ⟨_, _, _, h, hnow⟩
  | step _ ih =>
    obtain ⟨_, _, _, hled, hP⟩ := ih
    obtain ⟨_, _, _, _, hled', hlog, hmove⟩ := hled.turn
    exact ⟨_, _, _, hled', hturn hled hled' hlog hmove hP⟩

/-- The items of a batch that is led stay the same. -/
theorem Led.items_eq {batch' : Batch} {collector' : Collector} {workers' : List WorkerStage}
    (h : run.Led id n batch collector workers) (h' : run.Led id m batch' collector' workers') :
    batch'.items = batch.items := by
  have hkept : ∀ {n m batch batch' collector collector' workers workers'}, n ≤ m →
      run.Led id n batch collector workers → run.Led id m batch' collector' workers' →
      batch'.items = batch.items := by
    intro n m batch batch' collector collector' workers workers' hnm h h'
    obtain ⟨_, _, _, hled, hitems⟩ := h.forward (P := fun _ b _ _ => b.items = batch.items) rfl
      (fun hled _ _ hturn hitems => (hturn.items_eq hled.ledger.1).trans hitems) hnm
    obtain ⟨rfl, -, -⟩ := h'.unique hled
    exact hitems
  rcases Nat.le_total n m with hnm | hmn
  · exact hkept hnm h h'
  · exact (hkept hmn h' h).symm

end Run

/-! ## 5. Runs of labels -/

/-- Whether no worker of a batch has panicked and nobody has cancelled it. -/
def World.isCalm (world : World) (id : Nat) : Bool :=
  (world.machine.workers id).all (!·.isAbandoned) && world.machine.batches[id]?.all (!·.cancelled)

section

variable {config : Config} {labels : List Label} {id : Nat}
  (h : ((World.new config).after labels).isSome = true)

/-- In a run of labels that is calm at each step nobody panics and nobody cancels. -/
theorem Run.calm_ofLabels
    (hcalm : ∀ n ≤ labels.length, ((ofLabels config labels h).world n).isCalm id = true) :
    (ofLabels config labels h).Unharmed id ∧ (ofLabels config labels h).Uncancelled id := by
  have hall : ∀ n, ((ofLabels config labels h).world n).isCalm id = true :=
    forall_ofLabels (P := fun world => world.isCalm id = true) h hcalm
  refine ⟨fun n hmem => ?_, fun n batch hbatch => ?_⟩
  · have hself := List.all_eq_true.mp (Bool.and_eq_true_iff.mp (hall n)).1 _ hmem
    exact absurd hself (by simp [WorkerStage.isAbandoned])
  · have hself := (Bool.and_eq_true_iff.mp (hall n)).2
    rw [hbatch] at hself
    simpa using hself

/-- What is answered in a run of labels is answered when it is over. -/
theorem Run.answered_ofLabels (id n : Nat) :
    ∃ more, ((ofLabels config labels h).world labels.length).log.answered id =
      ((ofLabels config labels h).world n).log.answered id ++ more := by
  refine forall_ofLabels (P := fun world => ∃ more,
    ((ofLabels config labels h).world labels.length).log.answered id =
      world.log.answered id ++ more) h (fun n hn => ?_) n
  refine (ofLabels config labels h).later hn (motive := fun world => ∃ more,
    world.log.answered id = ((ofLabels config labels h).world n).log.answered id ++ more)
    ⟨[], (List.append_nil _).symm⟩ ?_
  rintro world next label - ⟨more, hmore⟩ hstep
  obtain ⟨events, -, hlog⟩ := World.step_ok hstep
  exact ⟨more ++ Log.answered events id, by rw [hlog, Log.answered_append, hmore, List.append_assoc]⟩

end

/-- Items under these keys. -/
def Run.pings (keys : List String) : List BatchItem :=
  keys.map fun key => ⟨key, ⟨"Ping", [], none⟩, ⟨[], .string⟩⟩

end RemoteCall.Client
