/-
# Batches that go smoothly

A batch is *smooth* as long as no send or receive for its items has failed, nobody has cancelled it
and no worker has panicked.  Workers may still end without a connection.  In a smooth batch

* no failure is reported, so the leader never ends the batch early, and no worker stops before the
  queue is empty;
* every item is in the queue, with a worker, in the channel, with the leader or delivered
  (`Smooth.lossless`): a worker that ends without a connection has taken none.

That an item is in one of these places *at most* is the ledger of the batch (`Ledger.count_le`).  So
when a smooth batch is over and its queue is empty, all items are delivered (`Smooth.delivered`).
Whether the queue is emptied is not said here; it takes a worker with a connection.
-/
import RemoteCall.Proofs.Client.Batch.Course

namespace RemoteCall.Client

/-! ## 1. Stages -/

/-- Whether a worker is in a stage that it comes to without a failure. -/
def WorkerStage.isSmooth : WorkerStage → Bool
  | receiving _ _ _ (some _) | received _ _ _ _ _ (some _) | failing _ _ | abandoned => false
  | _ => true

/-- Whether a worker is about to give its connection back. -/
def WorkerStage.isReleasing : WorkerStage → Bool
  | releasing _ _ => true
  | _ => false

/-- Whether a collector is in a stage that it comes to without a failure. -/
def CollectorStage.isSmooth : CollectorStage → Bool
  | launching | listening | inspecting (.delivery _) | delivering _ | joining none | joined none
  | concluding none | finished (.ok _) => true
  | _ => false

/-- Whether a collector has taken all reports. -/
def CollectorStage.isEnding : CollectorStage → Bool
  | joining _ | joined _ | concluding _ | finished _ => true
  | _ => false

/-- A batch that has met no failure, after these deliveries. -/
structure Smooth (batch : Batch) (workers : List WorkerStage) (collector : Collector)
    (told : List Delivery) : Prop where
  leader : collector.stage.isSmooth = true
  crew : ∀ worker ∈ workers, worker.isSmooth = true
  reports : ∀ error, .failed error ∉ batch.channel
  /-- The workers are told to stop when they have ended. -/
  going : batch.halted = true → collector.isOver = true
  /-- A worker gives its connection back when the queue is empty. -/
  spent : ∀ worker ∈ workers, worker.isReleasing = true → batch.queue = []
  /-- The leader ends the batch when nothing is under way. -/
  ending : collector.stage.isEnding = true →
    batch.channel = [] ∧ ∀ worker ∈ workers, worker.isOver = true
  ended : ∀ result, collector.stage = .finished (.ok result) →
    result = collector.batchEnd (collector.shortfall? batch)
  /-- No item is lost. -/
  lossless : collector.stage ≠ .launching → ∀ key, (keysOf batch.items).count key ≤
    pendingCount batch workers collector key + (told.map Delivery.key).count key

/-! ## 2. Steps of workers -/

section

variable {id depth timeoutMs : Nat} {pool pool' : Pool} {batch batch' : Batch}
  {stage stage' : WorkerStage} {events : List Event}

theorem WorkerStage.isSmooth_await {conn : ConnId} {slot : Nat} {waiting : List BatchItem} :
    (await conn slot waiting none).isSmooth = true ∧
      (await conn slot waiting none).isReleasing = false := by
  unfold await
  cases waiting <;> exact ⟨rfl, rfl⟩

theorem WorkerStage.isSmooth_dispatch {conn : ConnId} {slot : Nat} {sent todo : List BatchItem} :
    (dispatch conn slot sent todo).isSmooth = true ∧
      (dispatch conn slot sent todo).isReleasing = false := by
  unfold dispatch
  cases todo with
  | nil => exact isSmooth_await
  | cons => exact ⟨rfl, rfl⟩

/-- No operation for an item of the batch has failed. -/
def NoneFailed (answered : List (Operation × Answer)) : Prop :=
  ∀ exchange ∈ answered, ∀ error, exchange.2 ≠ .failed error

/-- **A worker that meets no failure** goes on smoothly, and stops only when the queue is empty. -/
theorem WorkerMove.smooth
    (h : WorkerMove id depth timeoutMs pool batch stage pool' batch' stage' events)
    (hsmooth : stage.isSmooth = true) (hdepth : 0 < depth) (hgoing : batch.isStopping = false)
    (hunharmed : stage' ≠ .abandoned) (hunfailed : NoneFailed (Log.answered events id)) :
    stage'.isSmooth = true ∧ (stage'.isReleasing = true → batch'.queue = []) ∧
      (∀ error, .failed error ∈ batch'.channel → .failed error ∈ batch.channel) := by
  have hkept : ∀ error, Report.failed error ∈ batch.channel → .failed error ∈ batch.channel :=
    fun _ hmem => hmem
  cases h with
  | gaveUp hstopping | turnedAway hstopping | stopped hstopping =>
    exact absurd (hstopping.symm.trans hgoing) (by simp)
  | connectPanicked | panicked => exact absurd rfl hunharmed
  | @sendFailed conn slot item sent todo error =>
    refine absurd rfl (hunfailed (.send conn item.request.frame, .failed error) ?_ error)
    simp [Log.answered]
  | @receiveFailed conn slot item waiting sendError error =>
    refine absurd rfl (hunfailed (.receive conn, .failed error) ?_ error)
    simp [Log.answered]
  | failed => cases hsmooth
  | drained hempty =>
    exact ⟨rfl, fun _ => (List.take_eq_nil_iff.mp hempty).resolve_left (Nat.ne_of_gt hdepth), hkept⟩
  | sent =>
    refine ⟨WorkerStage.isSmooth_dispatch.1, fun hreleasing => ?_, hkept⟩
    rw [WorkerStage.isSmooth_dispatch.2] at hreleasing
    cases hreleasing
  | @received _ _ _ _ sendError =>
    cases sendError with
    | none => exact ⟨rfl, (absurd · Bool.false_ne_true), hkept⟩
    | some error => cases hsmooth
  | @reported _ _ _ _ _ sendError =>
    cases sendError with
    | some error => cases hsmooth
    | none =>
      refine ⟨WorkerStage.isSmooth_await.1, fun hreleasing => ?_, fun error hmem => ?_⟩
      · rw [WorkerStage.isSmooth_await.2] at hreleasing
        cases hreleasing
      · exact (List.mem_append.mp hmem).resolve_right (by simp)
  | _ => exact ⟨rfl, (absurd · Bool.false_ne_true), hkept⟩

/-- **A worker that meets no failure drops no item.** -/
theorem WorkerMove.le_pending
    (h : WorkerMove id depth timeoutMs pool batch stage pool' batch' stage' events)
    (hunharmed : stage' ≠ .abandoned) (hunfailed : NoneFailed (Log.answered events id))
    (key : String) :
    batch.pending key + (keysOf stage.held).count key ≤
      batch'.pending key + (keysOf stage'.held).count key := by
  cases h with
  | panicked => exact absurd rfl hunharmed
  | @sendFailed conn slot item sent todo error =>
    refine absurd rfl (hunfailed (.send conn item.request.frame, .failed error) ?_ error)
    simp [Log.answered]
  | @receiveFailed conn slot item waiting sendError error =>
    refine absurd rfl (hunfailed (.receive conn, .failed error) ?_ error)
    simp [Log.answered]
  | fetched hfound =>
    have hsplit : keysOf batch.queue = keysOf (batch.queue.take depth) ++
        keysOf (batch.queue.drop depth) := by
      rw [← keysOf_append, List.take_append_drop]
    simp only [Batch.pending, WorkerStage.held, hsplit, hfound, List.count_append, keysOf_nil,
      List.nil_append, List.count_nil]
    omega
  | sent =>
    rw [WorkerStage.held_dispatch, List.append_assoc]
    exact Nat.le_refl _
  | reported =>
    rw [WorkerStage.held_await]
    simp only [Batch.pending, Batch.report, WorkerStage.held, List.filterMap_append,
      List.filterMap_cons, List.filterMap_nil, Report.key?, WorkerStage.key_delivery,
      keysOf_cons, List.count_append, List.count_cons, List.count_nil]
    omega
  | failed =>
    simp only [Batch.pending, Batch.report, List.filterMap_append, List.filterMap_cons,
      List.filterMap_nil, Report.key?, List.append_nil]
    exact Nat.le_refl _
  | _ => exact Nat.le_refl _

/-- An empty queue stays empty. -/
theorem WorkerMove.queue_empty
    (h : WorkerMove id depth timeoutMs pool batch stage pool' batch' stage' events)
    (hempty : batch.queue = []) : batch'.queue = [] := by
  cases h with
  | fetched => rw [hempty, List.drop_nil]
  | _ => exact hempty

theorem WorkerMove.halted_eq
    (h : WorkerMove id depth timeoutMs pool batch stage pool' batch' stage' events) :
    batch'.halted = batch.halted := by
  cases h <;> rfl

end

/-! ## 3. Steps of teams -/

section

variable {id limit depth timeoutMs hired : Nat} {batch batch' : Batch} {workers : List WorkerStage}
  {collector collector' : Collector} {told : List Delivery} {events : List Event}

/-- In a smooth batch nobody who still works is told to stop. -/
theorem Smooth.not_halted (h : Smooth batch workers collector told) {worker : WorkerStage}
    (hmem : worker ∈ workers) (hworking : worker.isOver = false) :
    batch.halted = false ∧ collector.stage.isEnding = false := by
  have hopen : collector.stage.isEnding = false := by
    refine Bool.eq_false_iff.mpr fun hending => ?_
    exact absurd (((h.ending hending).2 worker hmem).symm.trans hworking) (by simp)
  refine ⟨Bool.eq_false_iff.mpr fun hhalted => ?_, hopen⟩
  have hover := h.going hhalted
  have hleader := h.leader
  obtain ⟨stage, completed, errors⟩ := collector
  cases stage with
  | finished => cases hopen
  | abandoned => cases hleader
  | _ => cases hover

/-- A step of a worker keeps a batch smooth. -/
theorem Smooth.work {before after : List WorkerStage} {stage stage' : WorkerStage}
    {pool pool' : Pool} (h : Smooth batch (before ++ stage :: after) collector told)
    (hdepth : 0 < depth) (huncancelled : batch.cancelled = false) (hunharmed : stage' ≠ .abandoned)
    (hunfailed : NoneFailed (Log.answered events id))
    (hmove : WorkerMove id depth timeoutMs pool batch stage pool' batch' stage' events) :
    Smooth batch' (before ++ stage' :: after) collector told := by
  have hself : stage ∈ before ++ stage :: after := mem_around.mpr (.inr rfl)
  have hothers : ∀ worker ∈ before ++ after, worker ∈ before ++ stage :: after :=
    fun worker hmem => mem_around.mpr (.inl hmem)
  obtain ⟨hrunning, hopen⟩ := h.not_halted hself hmove.not_over
  have hgoing := Batch.isStopping_eq_false huncancelled hrunning
  obtain ⟨hsmooth, hspent, hreports⟩ :=
    hmove.smooth (h.crew stage hself) hdepth hgoing hunharmed hunfailed
  refine ⟨h.leader, fun worker hmem => ?_, fun error hmem => h.reports error (hreports error hmem),
    fun hhalted => ?_, fun worker hmem hreleasing => ?_, fun hending => ?_, fun result hstage => ?_,
    fun hstage key => ?_⟩
  · rcases mem_around.mp hmem with hmem | rfl
    · exact h.crew worker (hothers worker hmem)
    · exact hsmooth
  · rw [hmove.halted_eq, hrunning] at hhalted
    cases hhalted
  · rcases mem_around.mp hmem with hmem | rfl
    · exact hmove.queue_empty (h.spent worker (hothers worker hmem) hreleasing)
    · exact hspent hreleasing
  · rw [hopen] at hending
    cases hending
  · rw [hstage] at hopen
    cases hopen
  · have hle := hmove.le_pending hunharmed hunfailed key
    have hall := h.lossless hstage key
    rw [hmove.batch_frame.1]
    simp only [pendingCount, heldBy_around] at hall ⊢
    omega

/-- A leader that meets no failure hands items on and drops none. -/
theorem CollectorMove.pendingCount_le {crew : Crew}
    (h : CollectorMove id limit crew batch collector batch' collector' hired events)
    (hleads : collector.leads = true) (hsmooth : collector.stage.isSmooth = true)
    (hlaunched : collector.stage ≠ .launching) (huncancelled : batch.cancelled = false)
    (workers : List WorkerStage) (key : String) :
    pendingCount batch workers collector key ≤
      pendingCount batch' workers collector' key +
        ((Log.told events id).map Delivery.key).count key := by
  cases h with
  | refused | started => cases hleads
  | launched => exact absurd rfl hlaunched
  | interrupted hcancelled => exact absurd (hcancelled.symm.trans huncancelled) (by simp)
  | @took report channel hfound =>
    cases hkey : report.key? with
    | none => simp [pendingCount, Batch.pending, Collector.key?, hfound, hkey]
    | some reported =>
      simp only [pendingCount, Batch.pending, Collector.key?, hfound, hkey, List.filterMap_cons,
        List.count_cons, Option.toList_some, Option.toList_none, List.count_nil]
      omega
  | @delivered delivery =>
    cases delivery <;> simp [pendingCount, Batch.pending, Collector.key?, Collector.note, Log.told,
      Log.callbacks, Callback.delivery?, Delivery.key]
  | concluded hstage =>
    have hkey : collector.key? = none := by rw [Collector.key?, hstage]
    simp only [pendingCount, hkey]
    exact Nat.le_add_right _ _
  | rejected | gaveUp | halted | swept | fired | spent => cases hsmooth
  | _ =>
    simp only [pendingCount, Collector.key?]
    exact Nat.le_add_right _ _

/-- **A step of the leader keeps a batch smooth.** -/
theorem Smooth.lead (h : Smooth batch workers collector told) (hleads : collector.leads = true)
    (hlaunched : collector.stage ≠ .launching) (huncancelled : batch.cancelled = false)
    (hcrew : Crew.of workers ≠ .panicked)
    (hmove : CollectorMove id limit (Crew.of workers) batch collector batch' collector' hired
      events) :
    Smooth batch' workers collector' (told ++ Log.told events id) := by
  have hlossless : ∀ key, (keysOf batch'.items).count key ≤
      pendingCount batch' workers collector' key +
        ((told ++ Log.told events id).map Delivery.key).count key := by
    intro key
    have hall := h.lossless hlaunched key
    have hle := hmove.pendingCount_le hleads h.leader hlaunched huncancelled workers key
    rw [(hmove.batch_frame hleads).1, List.map_append, List.count_append]
    omega
  have hrunning : batch.halted ≠ true :=
    fun hhalted => absurd ((h.going hhalted).symm.trans hmove.not_over) (by simp)
  obtain ⟨hleader, hworkers, hreports, -, hspent, hending, -, -⟩ := h
  cases hmove with
  | refused | started => cases hleads
  | launched => exact absurd rfl hlaunched
  | interrupted hcancelled => exact absurd (hcancelled.symm.trans huncancelled) (by simp)
  | abandoned hpanicked => exact absurd hpanicked hcrew
  | @took report channel hfound =>
    rw [hfound] at hreports
    cases report with
    | failed error => exact absurd (List.mem_cons_self ..) (hreports error)
    | delivery delivery =>
      exact ⟨rfl, hworkers, fun error hmem => hreports error (List.mem_cons_of_mem _ hmem),
        (absurd · hrunning), hspent, nofun, fun _ hself => (nomatch hself), fun _ => hlossless⟩
  | ranDry hempty hover =>
    exact ⟨rfl, hworkers, hreports, (absurd · hrunning), hspent,
      fun _ => ⟨hempty, Crew.of_ne_working hover⟩, fun _ hself => (nomatch hself),
      fun _ => hlossless⟩
  | accepted =>
    exact ⟨rfl, hworkers, hreports, (absurd · hrunning), hspent, nofun,
      fun _ hself => (nomatch hself), fun _ => hlossless⟩
  | @delivered delivery =>
    cases delivery <;>
      exact ⟨rfl, hworkers, hreports, (absurd · hrunning), hspent, nofun,
      fun _ hself => (nomatch hself), fun _ => hlossless⟩
  | @joined _ failure =>
    cases failure with
    | none =>
      exact ⟨rfl, hworkers, hreports, (absurd · hrunning), hspent, hending,
        fun _ hself => (nomatch hself), fun _ => hlossless⟩
    | some error => cases hleader
  | @judged failure =>
    cases failure with
    | some error => cases hleader
    | none =>
      rw [huncancelled] at hlossless ⊢
      exact ⟨rfl, hworkers, hreports, (absurd · hrunning), hspent, hending,
        fun _ hself => (nomatch hself), fun _ => hlossless⟩
  | @concluded failure notice collector hstage result hresult =>
    rw [hstage] at hleader hending
    cases failure with
    | some error => cases hleader
    | none =>
      refine ⟨rfl, hworkers, hreports, fun _ => rfl, hspent, hending, fun result' hself => ?_,
        fun _ => hlossless⟩
      cases hself
      exact hresult
  | rejected | gaveUp | halted | swept | fired | spent => cases hleader

/-- A batch that has just been launched is smooth. -/
theorem Smooth.launched (hqueue : batch.queue = batch.items) (hchannel : batch.channel = [])
    (hhalted : batch.halted = false) (hstage : collector.stage = .listening) :
    Smooth batch (List.replicate hired .acquiring) collector [] := by
  have hacquiring : ∀ worker ∈ List.replicate hired WorkerStage.acquiring, worker = .acquiring :=
    fun worker hmem => (List.mem_replicate.mp hmem).2
  refine ⟨by rw [hstage]; rfl, fun worker hmem => ?_, fun error => ?_, fun hover => ?_,
    fun worker hmem hreleasing => ?_, fun hending => ?_, fun result hfinished => ?_,
    fun _ key => ?_⟩
  · rw [hacquiring worker hmem]
    rfl
  · rw [hchannel]
    exact List.not_mem_nil
  · rw [hhalted] at hover
    cases hover
  · rw [hacquiring worker hmem] at hreleasing
    cases hreleasing
  · rw [hstage] at hending
    cases hending
  · rw [hstage] at hfinished
    cases hfinished
  · rw [pendingCount, Batch.pending, hqueue, Nat.add_assoc, Nat.add_assoc, Nat.add_assoc]
    exact Nat.le_add_right _ _

/-- **When a smooth batch is over and its queue is empty all items are delivered.** -/
theorem Smooth.delivered (h : Smooth batch workers collector told)
    (hledger : Ledger batch workers collector told) (hending : collector.stage.isEnding = true)
    (hqueue : batch.queue = []) : (told.map Delivery.key).Perm (keysOf batch.items) := by
  obtain ⟨hchannel, hover⟩ := h.ending hending
  have hnone : ∀ key, pendingCount batch workers collector key = 0 := by
    intro key
    have hheld : workers.flatMap WorkerStage.held = [] := by
      refine List.flatMap_eq_nil_iff.mpr fun worker hmem => ?_
      have hself := hover worker hmem
      cases worker <;> first | rfl | cases hself
    have hkey : collector.key? = none := by
      obtain ⟨stage, completed, errors⟩ := collector
      cases stage <;> first | rfl | cases hending
    rw [pendingCount, Batch.pending, heldBy, hqueue, hchannel, hheld, hkey]
    rfl
  have hlaunched : collector.stage ≠ .launching := by
    intro hstage
    rw [hstage] at hending
    cases hending
  refine List.perm_iff_count.mpr fun key => Nat.le_antisymm ?_ ?_
  · exact Nat.le_trans (Nat.le_add_left _ _) (hledger.count_le key)
  · have hall := h.lossless hlaunched key
    rw [hnone, Nat.zero_add] at hall
    exact hall

end

end RemoteCall.Client
