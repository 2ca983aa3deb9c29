/-
# Pipelining does not show

A batch with one worker, on a connection that answers by a `Script`, tells its user what it would
tell if the worker sent one request and waited for the response before the next: the items in their
order up to the first exchange that fails (`Run.Scripted.tells`).  How many requests the worker sends
ahead does not matter (`Run.pipelining_invisible`).

The invariant (`Solo`) is that the user has been told a first part of the script's reports, that the
collector and the channel hold the next, and that the worker is going to make the rest.  A report
is made once and is then handed on, so no step changes the whole; and a failure is the last report,
so when the collector stops at it nothing is lost.
-/
import RemoteCall.Proofs.Client.Batch.Script

namespace RemoteCall.Client

/-! ## 1. What the collector hands on -/

/-- What a collector has at hand: a report that it has taken, or the failure that ends the batch. -/
def Collector.hand (collector : Collector) : List Report :=
  match collector.stage with
  | .inspecting report => [report]
  | .delivering delivery => [.delivery delivery]
  | .rejecting error | .halting error | .sweeping error | .firing _ error
  | .joining (some error) | .joined (some error) | .concluding (some error)
  | .finished (.ok (.failure error _)) => [.failed error]
  | _ => []

/-- Whether a collector has taken all reports and found no failure. -/
def Collector.isDry (collector : Collector) : Bool :=
  match collector.stage with
  | .joining none | .joined none | .concluding none | .finished (.ok (.complete _ _)) => true
  | _ => false

section

variable {id limit hired : Nat} {crew : Crew} {batch batch' : Batch}
  {collector collector' : Collector} {events : List Event}

/-- **A collector hands reports on** to the user, in their order. -/
theorem CollectorMove.settles
    (h : CollectorMove id limit crew batch collector batch' collector' hired events)
    (hleads : collector.leads = true) (hlaunched : collector.stage ≠ .launching)
    (huncancelled : batch.cancelled = false) (hcrew : crew ≠ .panicked)
    (hfull : collector.stage = .concluding none → collector.shortfall? batch = none) :
    (Log.told events id).map .delivery ++ (collector'.hand ++ batch'.channel) =
      collector.hand ++ batch.channel := by
  cases h with
  | refused => cases hleads
  | started => cases hleads
  | launched => exact absurd rfl hlaunched
  | took hfound =>
    rw [hfound]
    rfl
  | interrupted hcancelled => exact absurd (hcancelled.symm.trans huncancelled) (by simp)
  | @delivered delivery completed errors =>
    cases delivery <;> simp [Log.told, Log.callbacks, Callback.delivery?, Collector.hand,
      Collector.note]
  | gaveUp =>
    rw [huncancelled]
    rfl
  | @joined _ failure => cases failure <;> rfl
  | abandoned hpanicked => exact absurd hpanicked hcrew
  | @judged failure =>
    rw [huncancelled]
    cases failure <;> rfl
  | @concluded failure notice collector hstage result hended =>
    have hquiet : Log.told [.effect (.notice notice), .effect (.concluded id result)] id = [] := by
      simp [Log.told, Log.callbacks, Callback.delivery?]
    rw [hquiet, hended]
    cases failure with
    | some error => simp [Collector.hand, hstage, Collector.batchEnd]
    | none => simp [Collector.hand, hstage, Collector.batchEnd, hfull hstage]
  | _ => rfl

/-- A collector that is dry found the channel empty and the workers at their end. -/
theorem CollectorMove.dry
    (h : CollectorMove id limit crew batch collector batch' collector' hired events)
    (hdry : collector'.isDry = true) :
    batch'.channel = batch.channel ∧
      (collector.isDry = true ∨ (batch.channel = [] ∧ crew ≠ .working)) := by
  cases h with
  | ranDry hempty hended => exact ⟨rfl, .inr ⟨hempty, hended⟩⟩
  | @joined _ failure =>
    cases failure with
    | none => exact ⟨rfl, .inl rfl⟩
    | some error => cases hdry
  | @judged failure =>
    cases failure with
    | none => exact ⟨rfl, .inl rfl⟩
    | some error => cases hdry
  | @delivered delivery => cases delivery <;> cases hdry
  | @concluded failure notice collector hstage result hended =>
    refine ⟨rfl, .inl ?_⟩
    cases failure with
    | none => simp [Collector.isDry, hstage]
    | some error =>
      rw [hended] at hdry
      cases hdry
  | _ => cases hdry

/-- A batch is halted for a failure, or when it is closed. -/
theorem CollectorMove.halts
    (h : CollectorMove id limit crew batch collector batch' collector' hired events)
    (hhalted : batch'.halted = true) :
    batch.halted = true ∨ (∃ error, .failed error ∈ collector.hand) ∨
      collector.stage.isClosing = true := by
  cases h with
  | @halted error => exact .inr (.inl ⟨error, List.mem_singleton_self _⟩)
  | concluded hstage =>
    rw [hstage]
    exact .inr (.inr rfl)
  | _ => exact .inl hhalted

end

/-! ## 2. The invariant -/

/-- A batch with one worker, as far as it has come: what its user has been told, what the collector
has at hand, what is in the channel and what the worker is going to report are the reports of the
script. -/
structure Solo (script : Script) (answered : List (Operation × Answer)) (told : List Delivery)
    (batch : Batch) (collector : Collector) (stage : WorkerStage) : Prop where
  follows : ∃ todo, script.Follows answered batch.queue stage todo ∧
    told.map .delivery ++ (collector.hand ++ batch.channel) ++ todo = script.reports 0 batch.items
  /-- As long as the worker has something to report nobody stops it. -/
  going : stage.isDone = false →
    batch.halted = false ∧ ∀ error, .failed error ∉ collector.hand ++ batch.channel
  dry : collector.isDry = true → batch.channel = [] ∧ stage.isOver = true

section

variable {script : Script} {answered answered' : List (Operation × Answer)}
  {told told' : List Delivery} {batch batch' : Batch} {collector collector' : Collector}
  {stage stage' : WorkerStage}

theorem Script.remaining_of_isDone {responses : Nat} {queue : List BatchItem}
    (h : stage.isDone = true) : script.remaining responses queue stage = [] := by
  cases stage <;> first | rfl | cases h

/-- When all is reported without a failure every item has its delivery. -/
theorem Script.length_of_reports {deliveries : List Delivery} {items : List BatchItem} {i : Nat}
    (h : deliveries.map .delivery = script.reports i items) : deliveries.length = items.length := by
  obtain ⟨made, ⟨hreports, hlength⟩ | ⟨error, hreports⟩⟩ := script.reports_cases i items
  · rw [← hlength, ← List.length_map (f := Report.delivery), h, hreports, List.length_map]
  · have hmem : Report.failed error ∈ deliveries.map .delivery := by
      rw [h, hreports]
      exact List.mem_append_right _ (List.mem_singleton_self _)
    obtain ⟨_, -, hcontra⟩ := List.mem_map.mp hmem
    cases hcontra

/-- Nothing is reported after a failure. -/
theorem Script.nothing_after_failure {deliveries : List Delivery} {error : Error}
    {rest : List Report} : ∀ {items : List BatchItem} {i : Nat},
    deliveries.map .delivery ++ .failed error :: rest = script.reports i items → rest = [] := by
  induction deliveries with
  | nil =>
    intro items i h
    cases items with
    | nil => cases h
    | cons item items =>
      unfold reports at h
      cases hsend : script.send i with
      | some sendError =>
        rw [hsend] at h
        exact (List.cons.inj h).2
      | none =>
        rw [hsend] at h
        cases hreceive : script.receive i with
        | error receiveError =>
          rw [hreceive] at h
          exact (List.cons.inj h).2
        | ok frame =>
          rw [hreceive] at h
          cases (List.cons.inj h).1
  | cons delivery deliveries ih =>
    intro items i h
    cases items with
    | nil => cases h
    | cons item items =>
      unfold reports at h
      cases hsend : script.send i with
      | some sendError =>
        rw [hsend] at h
        cases (List.cons.inj h).1
      | none =>
        rw [hsend] at h
        cases hreceive : script.receive i with
        | error receiveError =>
          rw [hreceive] at h
          cases (List.cons.inj h).1
        | ok frame =>
          rw [hreceive] at h
          exact ih (List.cons.inj h).2

/-- When the collector is dry every item is answered. -/
theorem Solo.shortfall?_eq_none (h : Solo script answered told batch collector stage)
    (hledger : Ledger batch [stage] collector told) (hstage : collector.stage = .concluding none) :
    collector.shortfall? batch = none := by
  obtain ⟨todo, ⟨rfl, -⟩, hreports⟩ := h.follows
  obtain ⟨hchannel, hover⟩ := h.dry (by rw [Collector.isDry, hstage])
  have hhand : collector.hand = [] := by rw [Collector.hand, hstage]
  rw [hhand, hchannel, Script.remaining_of_isDone (WorkerStage.isDone_of_isOver hover),
    List.append_nil, List.append_nil, List.append_nil] at hreports
  rw [Collector.shortfall?, hledger.answeredCount_eq, Script.length_of_reports hreports,
    if_neg (Nat.lt_irrefl _)]

/-- A step of the worker keeps the invariant, unless the worker ends without a connection. -/
theorem Solo.work {id depth timeoutMs : Nat} {pool pool' : Pool} {events : List Event}
    (h : Solo script answered told batch collector stage) (hdepth : 0 < depth)
    (huncancelled : batch.cancelled = false) (hunharmed : stage' ≠ .abandoned)
    (hanswered : answered' = answered ++ Log.answered events id) (hrules : script.Rules answered')
    (hmove : WorkerMove id depth timeoutMs pool batch stage pool' batch' stage' events) :
    (stage.isEarly = true ∧ stage' = .finished) ∨
      Solo script answered' told batch' collector stage' := by
  obtain ⟨todo, hfollows, hreports⟩ := h.follows
  have hgoing : stage.isDone = false → batch.isStopping = false :=
    fun hdone => Batch.isStopping_eq_false huncancelled (h.going hdone).1
  rcases hmove.follows hdepth hgoing hunharmed hanswered hrules hfollows with
    hlost | ⟨made, todo', rfl, hchannel, hfollows'⟩
  · exact .inl hlost
  · refine .inr ⟨⟨todo', hfollows', ?_⟩, fun hdone => ?_, fun hdry => ?_⟩
    · rw [hmove.batch_frame.1, ← hreports, hchannel]
      simp only [List.append_assoc]
    · obtain ⟨hdone, hhalted, hfailed⟩ := hmove.undone hdone
      obtain ⟨hgoing, hnone⟩ := h.going hdone
      refine ⟨hhalted.trans hgoing, fun error hmem => hnone error ?_⟩
      rcases List.mem_append.mp hmem with hmem | hmem
      · exact List.mem_append_left _ hmem
      · exact List.mem_append_right _ (hfailed error hmem)
    · have hover := (h.dry hdry).2
      exact absurd (hover.symm.trans hmove.not_over) (by simp)

/-- A step of the leader keeps the invariant. -/
theorem Solo.lead {id limit : Nat} {events : List Event}
    (h : Solo script answered told batch collector stage) (hleads : collector.leads = true)
    (hlaunched : collector.stage ≠ .launching) (huncancelled : batch.cancelled = false)
    (hunharmed : stage ≠ .abandoned) (horderly : Orderly [stage] collector)
    (hledger : Ledger batch [stage] collector told)
    (hmove : CollectorMove id limit (Crew.of [stage]) batch collector batch' collector' 0 events) :
    Solo script answered (told ++ Log.told events id) batch' collector' stage := by
  have hcrew : Crew.of [stage] ≠ .panicked := by
    intro hpanicked
    exact hunharmed (List.mem_singleton.mp (Crew.abandoned_mem hpanicked)).symm
  obtain ⟨-, hqueue⟩ := hmove.hired_eq hlaunched
  have hsettles :=
    hmove.settles hleads hlaunched huncancelled hcrew (h.shortfall?_eq_none hledger)
  obtain ⟨todo, hfollows, hreports⟩ := h.follows
  refine ⟨⟨todo, hqueue ▸ hfollows, ?_⟩, fun hdone => ?_, fun hdry => ?_⟩
  · rw [(hmove.batch_frame hleads).1, ← hreports, ← hsettles, List.map_append]
    simp only [List.append_assoc]
  · obtain ⟨hgoing, hnone⟩ := h.going hdone
    refine ⟨Bool.eq_false_iff.mpr fun hhalted => ?_, fun error hmem => hnone error ?_⟩
    · rcases hmove.halts hhalted with hhalted | ⟨error, hmem⟩ | hclosing
      · exact absurd (hhalted.symm.trans hgoing) (by simp)
      · exact hnone error (List.mem_append_left _ hmem)
      · have hover := horderly.workers_over hclosing stage (List.mem_singleton_self stage)
        exact absurd ((WorkerStage.isDone_of_isOver hover).symm.trans hdone) (by simp)
    · rw [← hsettles]
      exact List.mem_append_right _ hmem
  · obtain ⟨hchannel, hdry | ⟨hempty, hended⟩⟩ := hmove.dry hdry
    · rw [hchannel]
      exact h.dry hdry
    · exact ⟨hchannel.trans hempty, Crew.of_ne_working hended stage (List.mem_singleton_self stage)⟩

/-- A worker that has just been started is going to make all reports. -/
theorem Solo.launched (hqueue : batch.queue = batch.items) (hchannel : batch.channel = [])
    (hhalted : batch.halted = false) (hstage : collector.stage = .listening) :
    Solo script [] [] batch collector .acquiring := by
  have hhand : collector.hand = [] := by rw [Collector.hand, hstage]
  refine ⟨⟨_, ⟨rfl, rfl⟩, ?_⟩, fun _ => ⟨hhalted, ?_⟩, ?_⟩
  · rw [hhand, hchannel, ← hqueue]
    rfl
  · rw [hhand, hchannel]
    exact fun _ => List.not_mem_nil
  · rw [Collector.isDry, hstage]
    exact nofun

/-! ## 3. What is told in the end -/

/-- The delivery that a report is. -/
def Report.delivery? : Report → Option Delivery
  | delivery made => some made
  | failed _ => none

/-- The failure that a report is. -/
def Report.error? : Report → Option Error
  | delivery _ => none
  | failed error => some error

/-- The end of a batch after these reports: the first failure, or all responses and errors. -/
def endOf (reports : List Report) : BatchEnd :=
  let deliveries := reports.filterMap Report.delivery?
  match reports.findSome? Report.error? with
  | some error => .failure error (deliveries.filterMap Delivery.response?)
  | none =>
    .complete (deliveries.filterMap Delivery.response?) (deliveries.filterMap Delivery.error?)

/-- What the user of a batch is told if its items are exchanged one after the other. -/
def Script.callbacks (script : Script) (items : List BatchItem) : List Callback :=
  callbacksOf ((script.reports 0 items).filterMap Report.delivery?)
    (some (endOf (script.reports 0 items)))

theorem deliveries_of_reports (deliveries : List Delivery) :
    (deliveries.map Report.delivery).filterMap Report.delivery? = deliveries := by
  simp [List.filterMap_map, Function.comp_def, Report.delivery?]

theorem error?_of_reports (deliveries : List Delivery) :
    (deliveries.map Report.delivery).findSome? Report.error? = none := by
  simp [List.findSome?_map, Function.comp_def, Report.error?]

/-- **When the batch is over its user has been told all that the script says.** -/
theorem Solo.callbacks_eq {result : BatchEnd}
    (h : Solo script answered told batch collector stage)
    (hledger : Ledger batch [stage] collector told) (hover : stage.isOver = true)
    (hstage : collector.stage = .finished (.ok result)) :
    callbacksOf told (some result) = script.callbacks batch.items := by
  obtain ⟨todo, ⟨rfl, -⟩, hreports⟩ := h.follows
  rw [Script.remaining_of_isDone (WorkerStage.isDone_of_isOver hover), List.append_nil] at hreports
  obtain ⟨failure, hresult, -⟩ := hledger.ended result (by rw [Collector.result?, hstage]; rfl)
  cases failure with
  | none =>
    obtain rfl : result = .complete collector.completed collector.errors := hresult
    have hhand : collector.hand = [] := by rw [Collector.hand, hstage]
    have hchannel := (h.dry (by rw [Collector.isDry, hstage])).1
    rw [hhand, hchannel, List.append_nil, List.append_nil] at hreports
    rw [Script.callbacks, ← hreports, endOf, deliveries_of_reports, error?_of_reports,
      hledger.completed_eq, hledger.errors_eq]
  | some error =>
    obtain rfl : result = .failure error collector.completed := hresult
    have hhand : collector.hand = [.failed error] := by rw [Collector.hand, hstage]
    rw [hhand, List.singleton_append] at hreports
    rw [Script.nothing_after_failure hreports] at hreports
    have hfiltered : (told.map Report.delivery ++ [Report.failed error]).filterMap
        Report.delivery? = told := by
      rw [List.filterMap_append, deliveries_of_reports]
      exact List.append_nil told
    rw [Script.callbacks, ← hreports, endOf, hfiltered, List.findSome?_append, error?_of_reports,
      hledger.completed_eq]
    rfl

end

/-! ## 4. Runs with one worker -/

/-- A batch that has one worker had one before, or it is just being launched. -/
theorem Turn.alone {id limit depth timeoutMs : Nat} {batch batch' : Batch}
    {collector collector' : Collector} {workers : List WorkerStage} {stage' : WorkerStage}
    {events : Log}
    (h : Turn id limit depth timeoutMs batch collector workers batch' collector' [stage'] events) :
    (∃ stage, workers = [stage] ∧ (stage = .finished → stage' = .finished)) ∨
      (collector.stage = .launching ∧ batch' = { batch with queue := batch.items } ∧
        collector'.stage = .listening ∧ stage' = .acquiring ∧ events.callbacks id = [] ∧
        events.answered id = []) := by
  generalize hworkers' : [stage'] = workers' at h
  cases h with
  | rest | lead | stop => exact .inl ⟨stage', hworkers'.symm, fun hstage => hstage⟩
  | @work before after stage _ _ _ _ _ hmove =>
    obtain ⟨rfl, rfl, rfl⟩ := append_cons_eq_singleton hworkers'.symm
    refine .inl ⟨stage, rfl, ?_⟩
    rintro rfl
    exact absurd hmove.not_over (by simp [WorkerStage.isOver])
  | launch hstage hlistening huntold hunanswered =>
    have hmem : stage' ∈ List.replicate (min limit batch.items.length) WorkerStage.acquiring :=
      hworkers' ▸ List.mem_singleton_self stage'
    exact .inr ⟨hstage, rfl, hlistening, List.eq_of_mem_replicate hmem, huntold, hunanswered⟩

namespace Run

variable {config : Config} {run : Run config} {id : Nat} {script : Script}

/-- In this run the batch `id` has these items and is worked on by one worker, who gets a connection
that answers by the script; nobody cancels the batch or panics, and the run is fair to it. -/
structure Scripted (run : Run config) (id : Nat) (script : Script) (items : List BatchItem) :
    Prop where
  fair : run.Fair id
  unharmed : run.Unharmed id
  uncancelled : run.Uncancelled id
  rules : ∀ n, script.Rules ((run.world n).log.answered id)
  alone : ∃ n batch stage conn, (run.world n).machine.batches[id]? = some batch ∧
    batch.items = items ∧ (run.world n).machine.workers id = [stage] ∧
    (stage.grip id).conn? = some conn

variable {n : Nat} {batch : Batch} {collector : Collector} {workers : List WorkerStage}

/-- At this moment the worker of the batch follows the script. -/
def SoloAt (run : Run config) (id : Nat) (script : Script) (n : Nat) (batch : Batch)
    (collector : Collector) (stage : WorkerStage) : Prop :=
  Solo script ((run.world n).log.answered id) ((run.world n).log.told id) batch collector stage

section

variable {items : List BatchItem} {batch' : Batch} {collector' : Collector}
  {workers' : List WorkerStage} {stage : WorkerStage} {events : Log}

/-- **A turn of a batch with one worker** keeps the invariant, unless the worker ends without a
connection. -/
theorem SoloAt.turn (hscripted : run.Scripted id script items)
    (hled : run.Led id n batch collector [stage])
    (hled' : run.Led id (n + 1) batch' collector' workers')
    (hlog : (run.world (n + 1)).log = (run.world n).log ++ events)
    (hturn : Turn id (run.world n).machine.workerLimit (run.world n).machine.depth
        (run.world n).machine.config.acquireTimeoutMs batch collector
      [stage] batch' collector' workers' events)
    (h : run.SoloAt id script n batch collector stage) :
    ∃ stage', workers' = [stage'] ∧ (stage'.isEarly = true → stage.isEarly = true) ∧
      ((stage.isEarly = true ∧ stage' = .finished) ∨
        run.SoloAt id script (n + 1) batch' collector' stage') := by
  obtain ⟨hanswered, htold⟩ := log_next id hlog
  have huncancelled := hscripted.uncancelled n batch hled.batch_eq
  unfold SoloAt at h ⊢
  generalize hworkers : [stage] = workers at hturn
  cases hturn with
  | rest huntold hunanswered =>
    subst hworkers
    rw [hanswered, htold, hunanswered, Log.told_of_callbacks huntold, List.append_nil,
      List.append_nil]
    exact ⟨stage, rfl, fun hearly => hearly, .inr h⟩
  | launch => cases hworkers
  | lead hlaunched hmove =>
    subst hworkers
    have hunharmed := hled.ne_abandoned hscripted.unharmed (List.mem_singleton_self stage)
    obtain ⟨hleads, hledger, -⟩ := hled.ledger
    have hsolo := h.lead hleads hlaunched huncancelled hunharmed
      (hled.inOrder.2 collector (List.mem_singleton_self _)) hledger hmove
    rw [hanswered, htold, hmove.answered_eq, List.append_nil]
    exact ⟨stage, rfl, fun hearly => hearly, .inr hsolo⟩
  | @work before after _ stage' _ _ _ _ hmove =>
    obtain ⟨rfl, rfl, rfl⟩ := append_cons_eq_singleton hworkers.symm
    have hunharmed := hled'.ne_abandoned hscripted.unharmed (List.mem_singleton_self stage')
    rw [htold, Log.told_of_callbacks hmove.callbacks_eq, List.append_nil]
    exact ⟨stage', rfl, hmove.early, h.work (Nat.le_max_right _ _) huncancelled hunharmed hanswered
      (hscripted.rules (n + 1)) hmove⟩
  | stop hmove =>
    subst hworkers
    obtain ⟨aborts, rfl⟩ := hmove.aborts_only (hscripted.uncancelled (n + 1) _ hled'.batch_eq)
    rw [hanswered, htold, hmove.answered_eq, Log.told_of_callbacks hmove.callbacks_eq,
      List.append_nil, List.append_nil]
    exact ⟨stage, rfl, fun hearly => hearly, .inr ⟨h.follows, h.going, h.dry⟩⟩

/-- **The worker follows the script** from the launch of the batch on, or has ended. -/
theorem Led.solo (hscripted : run.Scripted id script items)
    (hled : run.Led id n batch collector [stage]) :
    stage = .finished ∨ run.SoloAt id script n batch collector stage := by
  refine led_induct run id (P := fun n batch collector workers => ∀ stage,
    workers = [stage] → stage = .finished ∨ run.SoloAt id script n batch collector stage)
    (fun hled hstage stage hworkers => ?_)
    (fun {n batch collector workers batch' collector' workers' events} hled hled' hlog hturn h
      stage' hworkers' => ?_) hled stage rfl
  · exact absurd ((hled.launching hstage).workers_eq.symm.trans hworkers) (by simp)
  · subst hworkers'
    rcases hturn.alone with ⟨stage, rfl, hfinished⟩ |
      ⟨hstage, rfl, hstage', rfl, huntold, hunanswered⟩
    · rcases h stage rfl with hover | hsolo
      · exact .inl (hfinished hover)
      · obtain ⟨_, hself, -, hlost | hsolo'⟩ := hsolo.turn hscripted hled hled' hlog hturn
        · exact .inl ((List.cons.inj hself).1.trans hlost.2)
        · exact .inr ((List.cons.inj hself).1 ▸ hsolo')
    · obtain ⟨-, hhalted, -, hchannel, hanswered, htold⟩ := hled.launching hstage
      obtain ⟨hanswered', htold'⟩ := log_next id hlog
      refine .inr ?_
      rw [SoloAt, hanswered', htold', hanswered, htold, hunanswered, Log.told_of_callbacks huntold]
      exact Solo.launched rfl hchannel hhalted hstage'

end

/-- What a scripted batch has come to when its leader is over. -/
theorem Scripted.callbacks_eq {items : List BatchItem} (h : run.Scripted id script items)
    {stage : WorkerStage} (hled : run.Led id n batch collector [stage])
    (hover : collector.isOver = true) (hsolo : run.SoloAt id script n batch collector stage) :
    (run.world n).log.callbacks id = script.callbacks batch.items := by
  obtain ⟨result, hfinished⟩ := hled.finished h.unharmed hover
  obtain ⟨-, hledger, hcallbacks⟩ := hled.ledger
  have hclosing : collector.stage.isClosing = true := by
    rw [hfinished]
    rfl
  have hworker := (hled.inOrder.2 collector (List.mem_singleton_self _)).workers_over hclosing stage
    (List.mem_singleton_self stage)
  rw [hcallbacks, Collector.result?, hfinished]
  exact hsolo.callbacks_eq hledger hworker hfinished

/-- **The user of a scripted batch is told what the script says.** -/
theorem Scripted.tells {items : List BatchItem} (h : run.Scripted id script items) :
    ∃ n, ∀ m, n ≤ m → (run.world m).log.callbacks id = script.callbacks items := by
  obtain ⟨start, batch, stage, conn, hbatch, hitems, hworkers, hconn⟩ := h.alone
  obtain ⟨collector, hled⟩ := led_of_going hbatch (.inr (by simp [hworkers]))
  rw [hworkers] at hled
  -- The worker has its connection, so it follows the script and goes on doing so.
  have hheld : stage ≠ .finished ∧ stage.isEarly = false := by
    cases stage with
    | acquiring | connecting | finished | abandoned => cases hconn
    | _ => exact ⟨nofun, rfl⟩
  have hnow := (hled.solo h).resolve_left hheld.1
  obtain ⟨last, _, _, _, hled₁, hover⟩ := hled.eventually_over h.fair
  obtain ⟨batch', collector', _, hled', hitems', stage', rfl, -, hsolo⟩ :=
    hled.forward (P := fun n batch collector workers => batch.items = items ∧
      ∃ stage, workers = [stage] ∧ stage.isEarly = false ∧
        run.SoloAt id script n batch collector stage)
      ⟨hitems, stage, rfl, hheld.2, hnow⟩
      (by
        rintro n batch collector _ batch' collector' workers' events hled hled' hlog hturn
          ⟨hitems, stage, rfl, hearly, hsolo⟩
        obtain ⟨stage', rfl, hback, hlost | hsolo'⟩ := hsolo.turn h hled hled' hlog hturn
        · exact absurd (hlost.1.symm.trans hearly) (by simp)
        · refine ⟨(hturn.items_eq hled.ledger.1).trans hitems, stage', rfl, ?_, hsolo'⟩
          exact Bool.eq_false_iff.mpr fun hself =>
            absurd ((hback hself).symm.trans hearly) (by simp))
      (Nat.le_max_left start last)
  obtain ⟨_, _, hled₂, -⟩ := hled₁.quiet hover (Nat.le_max_right start last)
  obtain ⟨-, rfl, -⟩ := hled'.unique hled₂
  refine ⟨max start last, fun m hm => ?_⟩
  obtain ⟨_, _, -, hsame⟩ := hled'.quiet hover hm
  rw [hsame, h.callbacks_eq hled' hover hsolo, hitems']

/-- **Pipelining does not show.**  The user of a scripted batch is told that its items are delivered
in their order, up to the first exchange that fails, and how the batch ended; and so is the user of
any other batch of the same items by the same script, however many requests are sent ahead in either
of them. -/
theorem pipelining_invisible {items : List BatchItem} (h : run.Scripted id script items) :
    (∃ n, ∀ m, n ≤ m → (run.world m).log.callbacks id = script.callbacks items) ∧
      ∀ {config' : Config} {run' : Run config'} {id' : Nat}, run'.Scripted id' script items →
        ∃ n, ∀ m m', n ≤ m → n ≤ m' →
          (run.world m).log.callbacks id = (run'.world m').log.callbacks id' := by
  obtain ⟨last, htold⟩ := h.tells
  refine ⟨⟨last, htold⟩, fun h' => ?_⟩
  obtain ⟨last', htold'⟩ := h'.tells
  refine ⟨max last last', fun m m' hm hm' => ?_⟩
  rw [htold m (Nat.le_trans (Nat.le_max_left _ _) hm),
    htold' m' (Nat.le_trans (Nat.le_max_right _ _) hm')]

/-! ## 5. A send that fails within a chunk -/

/-- A run of labels in which all goes by the script. -/
theorem scripted_ofLabels {labels : List Label} {items : List BatchItem}
    (hpossible : ((World.new config).after labels).isSome = true)
    (hlast : (ofLabels config labels hpossible).Serves id (labels.length - 1))
    (hover : ∀ task ∈ ((ofLabels config labels hpossible).world labels.length).machine.tasks,
      task.isOver = true)
    (hcalm : ∀ n ≤ labels.length, ((ofLabels config labels hpossible).world n).isCalm id = true)
    (hrules : script.Rules
      (((ofLabels config labels hpossible).world labels.length).log.answered id))
    (halone : ∃ n batch stage conn,
      ((ofLabels config labels hpossible).world n).machine.batches[id]? = some batch ∧
        batch.items = items ∧
        ((ofLabels config labels hpossible).world n).machine.workers id = [stage] ∧
        (stage.grip id).conn? = some conn) :
    (ofLabels config labels hpossible).Scripted id script items where
  fair := fair_ofLabels hpossible hlast hover
  unharmed := (calm_ofLabels hpossible hcalm).1
  uncancelled := (calm_ofLabels hpossible hcalm).2
  rules n := by
    obtain ⟨more, hmore⟩ := answered_ofLabels hpossible id n
    rw [hmore] at hrules
    exact hrules.of_append
  alone := halone

/-- The second request of a batch cannot be sent; every response is cut short. -/
def brokenPipe : Script where
  send i := if i = 1 then some (.io "broken pipe") else none
  receive _ := .ok []

/-- A batch of three items is started, and its worker takes a chunk. -/
def opening : List Label :=
  .order .newBatch :: (pings ["a", "b", "c"]).map (.order <| .addItem 0 ·) ++
    [.order (.collect 0), .advance 0, .advance 0, .advance 1, .answer 1 .connected, .advance 1,
      .advance 1, .advance 1]

/-- The worker gives up its connection, and the leader ends the batch. -/
def closing : List Label := .advance 1 :: .advance 1 :: List.replicate 13 (.advance 0)

/-- Two requests are sent ahead. -/
def ahead : List Label :=
  opening ++ [.answer 1 .sent, .answer 1 (.failed (.io "broken pipe")), .answer 1 (.received []),
    .advance 1] ++ closing

/-- One request is sent at a time. -/
def stepwise : List Label :=
  opening ++ [.answer 1 .sent, .answer 1 (.received []), .advance 1, .advance 1, .advance 1,
    .answer 1 (.failed (.io "broken pipe"))] ++ closing

theorem ahead_possible : ((World.new { batchConnections := 1, pipelineDepth := 2 }).after
    ahead).isSome = true := by decide

theorem stepwise_possible : ((World.new { batchConnections := 1, pipelineDepth := 1 }).after
    stepwise).isSome = true := by decide

theorem ahead_scripted : (ofLabels _ ahead ahead_possible).Scripted 0 brokenPipe
    (pings ["a", "b", "c"]) := by
  refine scripted_ofLabels ahead_possible ⟨.advance 0, by rfl, by decide⟩ (by decide) (by decide)
    (brokenPipe.rules_of_eq 2 1 (by rfl) (by rfl)) ⟨10, _, _, 1, rfl, rfl, rfl, rfl⟩

theorem stepwise_scripted : (ofLabels _ stepwise stepwise_possible).Scripted 0 brokenPipe
    (pings ["a", "b", "c"]) := by
  refine scripted_ofLabels stepwise_possible ⟨.advance 0, by rfl, by decide⟩ (by decide)
    (by decide) (brokenPipe.rules_of_eq 2 1 (by rfl) (by rfl)) ⟨10, _, _, 1, rfl, rfl, rfl, rfl⟩

/-- Whether two requests are sent ahead or one: the first item is delivered, and the batch ends with
the error of the second. -/
theorem pipelining_invisible_brokenPipe :
    ∃ (run : Run { batchConnections := 1, pipelineDepth := 2 })
      (run' : Run { batchConnections := 1, pipelineDepth := 1 }),
      run.Scripted 0 brokenPipe (pings ["a", "b", "c"]) ∧
      run'.Scripted 0 brokenPipe (pings ["a", "b", "c"]) ∧
      (∃ n, ∀ m, n ≤ m →
        (run.world m).log.callbacks 0 = brokenPipe.callbacks (pings ["a", "b", "c"])) ∧
      ∃ n, ∀ m m', n ≤ m → n ≤ m' →
        (run.world m).log.callbacks 0 = (run'.world m').log.callbacks 0 :=
  have h := pipelining_invisible ahead_scripted
  ⟨_, _, ahead_scripted, stepwise_scripted, h.1, h.2 stepwise_scripted⟩

end Run

end RemoteCall.Client
