/-
# The accounts of a batch

What the user of a batch is told accounts for its items: each is delivered once at most, the
terminal callback comes last and repeats the deliveries, and a batch that ends completely has
delivered all its items (`Accounts`).

The items of a batch that runs are in the queue, with the workers, in the channel, with the
collector, or delivered; a worker that fails may drop some.  No step of the team makes one item two,
which is what `Ledger` says by counting: no key is pending and delivered more often than it is a key
of an item.  The rest of the ledger is what the collector has noted of the deliveries so far.
-/
import Mathlib.Data.List.Nodup
import Mathlib.Data.List.Perm.Subperm
import RemoteCall.Proofs.Client.Team

namespace RemoteCall.Client

/-! ## 1. Accounts -/

/-- The response that a delivery is. -/
def Delivery.response? : Delivery → Option (String × Datum)
  | response key value => some (key, value)
  | itemError _ _ => none

/-- The item error that a delivery is. -/
def Delivery.error? : Delivery → Option (String × Error)
  | response _ _ => none
  | itemError key error => some (key, error)

/-- The responses that the terminal callback of a batch hands over. -/
def BatchEnd.responses : BatchEnd → List (String × Datum)
  | complete responses _ => responses
  | failure _ completed => completed

/-- Deliveries and the end of a batch, if it has ended, account for the items under these keys. -/
structure Accounts (keys : List String) (deliveries : List Delivery) (result? : Option BatchEnd) :
    Prop where
  /-- No key is delivered twice. -/
  once : (deliveries.map Delivery.key).Nodup
  known : ∀ delivery ∈ deliveries, delivery.key ∈ keys
  /-- The end repeats the responses in their order. -/
  responses_eq : ∀ result ∈ result?, result.responses = deliveries.filterMap Delivery.response?
  /-- A complete end repeats the item errors too, and nothing is left. -/
  complete : ∀ responses errors, result? = some (.complete responses errors) →
    errors = deliveries.filterMap Delivery.error? ∧
      (responses.map Prod.fst ++ errors.map Prod.fst).Perm keys
  /-- If an item is not answered the end is a failure. -/
  failure : ∀ result ∈ result?, (∃ key ∈ keys, key ∉ deliveries.map Delivery.key) →
    ∃ error completed, result = .failure error completed

theorem perm_keys (deliveries : List Delivery) :
    ((deliveries.filterMap Delivery.response?).map Prod.fst ++
      (deliveries.filterMap Delivery.error?).map Prod.fst).Perm (deliveries.map Delivery.key) := by
  induction deliveries with
  | nil => exact .nil
  | cons delivery deliveries ih =>
    cases delivery with
    | response key value => exact ih.cons key
    | itemError key error => exact List.perm_middle.trans (ih.cons key)

/-! ## 2. Items on their way -/

/-- The keys of items. -/
def keysOf (items : List BatchItem) : List String := items.map (·.key)

@[simp] theorem keysOf_nil : keysOf [] = [] := rfl

@[simp] theorem keysOf_cons (item : BatchItem) (items : List BatchItem) :
    keysOf (item :: items) = item.key :: keysOf items := rfl

@[simp] theorem keysOf_append (items items' : List BatchItem) :
    keysOf (items ++ items') = keysOf items ++ keysOf items' := List.map_append

/-- The items that a worker has taken and not answered. -/
def WorkerStage.held : WorkerStage → List BatchItem
  | sending _ _ sent todo => sent ++ todo
  | receiving _ _ waiting _ => waiting
  | received _ _ item _ waiting _ => item :: waiting
  | _ => []

/-- The key that a report answers. -/
def Report.key? : Report → Option String
  | delivery made => some made.key
  | failed _ => none

/-- The key that a collector is about to deliver. -/
def Collector.key? (collector : Collector) : Option String :=
  match collector.stage with
  | .inspecting report => report.key?
  | .delivering delivery => some delivery.key
  | _ => none

/-- How often a key is in the queue or the channel of a batch. -/
def Batch.pending (batch : Batch) (key : String) : Nat :=
  (keysOf batch.queue).count key + (batch.channel.filterMap Report.key?).count key

/-- How often workers hold a key. -/
def heldBy (workers : List WorkerStage) (key : String) : Nat :=
  (keysOf (workers.flatMap WorkerStage.held)).count key

@[simp] theorem WorkerStage.held_await {conn : ConnId} {slot : Nat} {waiting : List BatchItem}
    {sendError : Option Error} : (await conn slot waiting sendError).held = waiting := by
  unfold await
  split <;> rfl

@[simp] theorem WorkerStage.held_dispatch {conn : ConnId} {slot : Nat}
    {sent todo : List BatchItem} : (dispatch conn slot sent todo).held = sent ++ todo := by
  unfold dispatch
  split
  · rw [held_await, List.append_nil]
  · rfl

@[simp] theorem WorkerStage.key_delivery {item : BatchItem} {frame : Bytes} :
    (delivery item frame).key = item.key := by
  unfold delivery
  split <;> rfl

/-- A worker passes items on or drops them. -/
theorem WorkerMove.pending_le {id depth timeoutMs : Nat} {pool pool' : Pool} {batch batch' : Batch}
    {stage stage' : WorkerStage} {events : List Event}
    (h : WorkerMove id depth timeoutMs pool batch stage pool' batch' stage' events) (key : String) :
    batch'.pending key + (keysOf stage'.held).count key ≤
      batch.pending key + (keysOf stage.held).count key := by
  cases h with
  | fetched hfound =>
    have hsplit : keysOf batch.queue = keysOf (batch.queue.take depth) ++
        keysOf (batch.queue.drop depth) := by
      rw [← keysOf_append, List.take_append_drop]
    simp only [Batch.pending, WorkerStage.held, hsplit, hfound, List.count_append,
      List.nil_append]
    omega
  | drained hempty => exact Nat.le_refl _
  | sent =>
    rw [WorkerStage.held_dispatch, List.append_assoc]
    exact Nat.le_refl _
  | sendFailed =>
    rw [WorkerStage.held_await]
    simp only [WorkerStage.held, keysOf_append, List.count_append]
    omega
  | reported =>
    rw [WorkerStage.held_await]
    simp only [Batch.pending, Batch.report, WorkerStage.held, List.filterMap_append,
      List.filterMap_cons, List.filterMap_nil, Report.key?, WorkerStage.key_delivery,
      keysOf_cons, List.count_append, List.count_cons, List.count_nil]
    omega
  | failed =>
    simp only [Batch.pending, Batch.report, List.filterMap_append, List.filterMap_cons,
      List.filterMap_nil, Report.key?, List.append_nil]
    exact Nat.le_refl _
  | receiveFailed => exact Nat.add_le_add_left (Nat.zero_le _) _
  | panicked => exact Nat.add_le_add_left (Nat.zero_le _) _
  | _ => exact Nat.le_refl _

theorem WorkerMove.batch_frame {id depth timeoutMs : Nat} {pool pool' : Pool} {batch batch' : Batch}
    {stage stage' : WorkerStage} {events : List Event}
    (h : WorkerMove id depth timeoutMs pool batch stage pool' batch' stage' events) :
    batch'.items = batch.items ∧ batch'.started = batch.started := by
  cases h <;> exact ⟨rfl, rfl⟩

theorem heldBy_around {before after : List WorkerStage} {stage : WorkerStage} {key : String} :
    heldBy (before ++ stage :: after) key =
      heldBy before key + (keysOf stage.held).count key + heldBy after key := by
  simp only [heldBy, List.flatMap_append, List.flatMap_cons, keysOf_append, List.count_append]
  omega

theorem heldBy_hired {workers : List WorkerStage} {hired : Nat} {key : String} :
    heldBy (workers ++ List.replicate hired .acquiring) key = heldBy workers key := by
  have hnone : (List.replicate hired WorkerStage.acquiring).flatMap WorkerStage.held = [] := by
    rw [List.flatMap_eq_nil_iff]
    intro stage hstage
    rw [(List.mem_replicate.mp hstage).2]
    rfl
  rw [heldBy, List.flatMap_append, hnone, List.append_nil, heldBy]

/-! ## 3. The ledger -/

/-- The end of the batch, if the collector has come to it. -/
def Collector.result? (collector : Collector) : Option BatchEnd :=
  match collector.stage with
  | .finished (.ok result) => some result
  | _ => none

/-- How often a key is somewhere between the queue and the user. -/
def pendingCount (batch : Batch) (workers : List WorkerStage) (collector : Collector)
    (key : String) : Nat :=
  batch.pending key + heldBy workers key + collector.key?.toList.count key

/-- The books of a batch that is started, after these deliveries. -/
structure Ledger (batch : Batch) (workers : List WorkerStage) (collector : Collector)
    (deliveries : List Delivery) : Prop where
  completed_eq : collector.completed = deliveries.filterMap Delivery.response?
  errors_eq : collector.errors = deliveries.filterMap Delivery.error?
  count_le : ∀ key, pendingCount batch workers collector key +
    (deliveries.map Delivery.key).count key ≤ (keysOf batch.items).count key
  /-- Before the batch is launched nothing is under way. -/
  blank : collector.stage = .launching → deliveries = [] ∧ batch.channel = [] ∧ workers = []
  /-- A batch ends as a failure if not every item was answered. -/
  ended : ∀ result ∈ collector.result?, ∃ failure, result = collector.batchEnd failure ∧
    (failure = none → batch.items.length ≤ collector.answeredCount)

namespace Ledger

variable {batch batch' : Batch} {workers workers' : List WorkerStage}
  {collector collector' : Collector} {deliveries : List Delivery}

/-- The deliveries are all that the collector counts. -/
theorem answeredCount_eq (h : Ledger batch workers collector deliveries) :
    collector.answeredCount = deliveries.length := by
  have hlength := (perm_keys deliveries).length_eq
  rw [List.length_append, List.length_map, List.length_map, List.length_map] at hlength
  rw [Collector.answeredCount, h.completed_eq, h.errors_eq, hlength]

/-- **A ledger gives the accounts.** -/
theorem accounts (h : Ledger batch workers collector deliveries)
    (hkeys : (keysOf batch.items).Nodup) :
    Accounts (keysOf batch.items) deliveries collector.result? := by
  have hcount : ∀ key, (deliveries.map Delivery.key).count key ≤ (keysOf batch.items).count key :=
    fun key => Nat.le_trans (Nat.le_add_left _ _) (h.count_le key)
  have honce : (deliveries.map Delivery.key).Nodup := by
    rw [List.nodup_iff_count_le_one] at hkeys ⊢
    exact fun key => Nat.le_trans (hcount key) (hkeys key)
  have hknown : ∀ delivery ∈ deliveries, delivery.key ∈ keysOf batch.items := by
    intro delivery hdelivery
    have hpos := List.count_pos_iff.mpr (List.mem_map_of_mem (f := Delivery.key) hdelivery)
    exact List.count_pos_iff.mp (Nat.lt_of_lt_of_le hpos (hcount _))
  have hall : ∀ responses errors, collector.result? = some (.complete responses errors) →
      errors = deliveries.filterMap Delivery.error? ∧
        (responses.map Prod.fst ++ errors.map Prod.fst).Perm (deliveries.map Delivery.key) ∧
        (deliveries.map Delivery.key).Perm (keysOf batch.items) := by
    intro responses errors hresult
    obtain ⟨failure, hend, hfull⟩ := h.ended _ hresult
    cases failure with
    | some error => cases hend
    | none =>
      cases hend
      have hlength := hfull rfl
      rw [h.answeredCount_eq] at hlength
      refine ⟨h.errors_eq, ?_, ?_⟩
      · rw [h.completed_eq, h.errors_eq]
        exact perm_keys deliveries
      · refine (honce.subperm ?_).perm_of_length_le ?_
        · exact List.forall_mem_map.mpr hknown
        · rw [keysOf, List.length_map, List.length_map]
          exact hlength
  refine ⟨honce, hknown, fun result hresult => ?_, fun responses errors hresult => ?_,
    fun result hresult hmissing => ?_⟩
  · obtain ⟨failure, rfl, -⟩ := h.ended result hresult
    rw [← h.completed_eq]
    cases failure <;> rfl
  · obtain ⟨herrors, hperm, hkeys⟩ := hall responses errors hresult
    exact ⟨herrors, hperm.trans hkeys⟩
  · cases result with
    | failure error completed => exact ⟨error, completed, rfl⟩
    | complete responses errors =>
      obtain ⟨key, hkey, hundelivered⟩ := hmissing
      exact absurd ((hall responses errors hresult).2.2.mem_iff.mpr hkey) hundelivered

/-- A batch that has just been started has a blank ledger. -/
theorem launched (hqueue : batch.queue = []) (hchannel : batch.channel = []) :
    Ledger batch [] .launched [] := by
  refine ⟨rfl, rfl, fun key => ?_, fun _ => ⟨rfl, hchannel, rfl⟩, fun _ h => nomatch h⟩
  simp [pendingCount, Batch.pending, heldBy, hqueue, hchannel, Collector.key?, Collector.launched]

/-- What adds no keys and does not end the batch keeps the ledger. -/
theorem keep (h : Ledger batch workers collector deliveries)
    (hcompleted : collector'.completed = collector.completed)
    (herrors : collector'.errors = collector.errors) (hitems : batch'.items = batch.items)
    (hpending : ∀ key, pendingCount batch' workers' collector' key ≤
      pendingCount batch workers collector key)
    (hblank : collector'.stage ≠ .launching) (hresult : collector'.result? = none) :
    Ledger batch' workers' collector' deliveries := by
  refine ⟨hcompleted.trans h.completed_eq, herrors.trans h.errors_eq, fun key => ?_,
    fun hstage => absurd hstage hblank, fun result hsome => ?_⟩
  · rw [hitems]
    exact Nat.le_trans (Nat.add_le_add_right (hpending key) _) (h.count_le key)
  · rw [hresult] at hsome
    cases hsome

/-- A step of a worker keeps the ledger. -/
theorem work {id depth timeoutMs : Nat} {pool pool' : Pool} {before after : List WorkerStage}
    {stage stage' : WorkerStage} {events : List Event}
    (h : Ledger batch (before ++ stage :: after) collector deliveries)
    (hmove : WorkerMove id depth timeoutMs pool batch stage pool' batch' stage' events) :
    Ledger batch' (before ++ stage' :: after) collector deliveries := by
  obtain ⟨hitems, -⟩ := hmove.batch_frame
  have hpending : ∀ key, pendingCount batch' (before ++ stage' :: after) collector key ≤
      pendingCount batch (before ++ stage :: after) collector key := by
    intro key
    have hle := hmove.pending_le key
    simp only [pendingCount, heldBy_around]
    omega
  refine ⟨h.completed_eq, h.errors_eq, fun key => ?_, fun hstage => ?_, fun result hresult => ?_⟩
  · rw [hitems]
    exact Nat.le_trans (Nat.add_le_add_right (hpending key) _) (h.count_le key)
  · have hnone := (h.blank hstage).2.2
    exact absurd hnone (by simp)
  · rw [hitems]
    exact h.ended result hresult

/-- The collector notes a delivery. -/
theorem note {delivery : Delivery} {completed : List (String × Datum)}
    {errors : List (String × Error)}
    (h : Ledger batch workers ⟨.delivering delivery, completed, errors⟩ deliveries) :
    Ledger batch workers ((⟨.listening, completed, errors⟩ : Collector).note delivery)
      (deliveries ++ [delivery]) := by
  have hcompleted : completed = deliveries.filterMap Delivery.response? := h.completed_eq
  have herrors : errors = deliveries.filterMap Delivery.error? := h.errors_eq
  have hcount : ∀ key, batch.pending key + heldBy workers key +
      ((deliveries ++ [delivery]).map Delivery.key).count key ≤ (keysOf batch.items).count key := by
    intro key
    have hle := h.count_le key
    simp only [pendingCount, Collector.key?, Option.toList_some] at hle
    rw [List.map_append, List.count_append, List.map_cons, List.map_nil]
    omega
  cases delivery with
  | response key value =>
    refine ⟨?_, ?_, hcount, by simp [Collector.note], by simp [Collector.note, Collector.result?]⟩
    · simp [Collector.note, hcompleted, Delivery.response?]
    · simp [Collector.note, herrors, Delivery.error?]
  | itemError key error =>
    refine ⟨?_, ?_, hcount, by simp [Collector.note], by simp [Collector.note, Collector.result?]⟩
    · simp [Collector.note, hcompleted, Delivery.response?]
    · simp [Collector.note, herrors, Delivery.error?]

/-- The collector ends the batch. -/
theorem conclude {failure : Option Error} (h : Ledger batch workers collector deliveries) :
    Ledger { batch with halted := true, aborts := [] } workers
      { collector with stage := .finished (.ok
          (collector.batchEnd (failure.or (collector.shortfall? batch)))) } deliveries := by
  refine ⟨h.completed_eq, h.errors_eq, fun key => ?_, nofun, ?_⟩
  · refine Nat.le_trans ?_ (h.count_le key)
    exact Nat.add_le_add_right (Nat.add_le_add_left (Nat.zero_le _) _) _
  · rintro result ⟨⟩
    refine ⟨failure.or (collector.shortfall? batch), by cases failure.or _ <;> rfl, fun hnone => ?_⟩
    obtain ⟨-, hshortfall⟩ := Option.or_eq_none_iff.mp hnone
    unfold Collector.shortfall? at hshortfall
    split at hshortfall
    · cases hshortfall
    · exact Nat.le_of_not_lt ‹_›

end Ledger

/-- What the user of a batch has been told. -/
def callbacksOf (deliveries : List Delivery) (result? : Option BatchEnd) : List Callback :=
  deliveries.map .delivery ++ result?.toList.map .terminal

/-- **A step of the leader** keeps the ledger, with what it tells the user. -/
theorem Ledger.lead {id limit hired : Nat} {crew : Crew} {batch batch' : Batch}
    {workers : List WorkerStage} {collector collector' : Collector} {deliveries : List Delivery}
    {events : List Event} (h : Ledger batch workers collector deliveries)
    (hleads : collector.leads = true)
    (hmove : CollectorMove id limit crew batch collector batch' collector' hired events) :
    ∃ deliveries',
      Ledger batch' (workers ++ List.replicate hired .acquiring) collector' deliveries' ∧
      callbacksOf deliveries' collector'.result? =
        callbacksOf deliveries collector.result? ++ Log.callbacks events id := by
  cases hmove with
  | refused hstarted => cases hleads
  | started hunstarted => cases hleads
  | launched =>
    obtain ⟨rfl, hchannel, rfl⟩ := h.blank rfl
    refine ⟨[], ⟨h.completed_eq, h.errors_eq, fun key => ?_, by simp,
      by simp [Collector.result?]⟩, rfl⟩
    rw [pendingCount, heldBy_hired]
    simp [Batch.pending, hchannel, heldBy, Collector.key?]
  | took hfound =>
    refine ⟨deliveries, h.keep rfl rfl rfl (fun key => ?_) (by simp) rfl, (List.append_nil _).symm⟩
    rename_i report channel completed errors
    simp only [pendingCount, Batch.pending, heldBy_hired, hfound, Collector.key?]
    cases report with
    | delivery delivery =>
      simp only [List.filterMap_cons, Report.key?, Option.toList_some, List.count_cons,
        Option.toList_none, List.count_nil]
      omega
    | failed error => exact Nat.le_refl _
  | interrupted hcancelled =>
    refine ⟨deliveries, h.keep rfl rfl rfl (fun key => ?_) (by simp) rfl, (List.append_nil _).symm⟩
    rw [pendingCount, heldBy_hired]
    exact Nat.add_le_add_left (Nat.zero_le _) _
  | delivered =>
    rw [List.replicate_zero, List.append_nil]
    refine ⟨_, h.note, ?_⟩
    rename_i delivery completed errors
    cases delivery <;> simp [callbacksOf, Collector.result?, Collector.note, Log.callbacks]
  | concluded hconcluding hended =>
    rw [List.replicate_zero, List.append_nil, hended]
    refine ⟨_, h.conclude, ?_⟩
    simp [callbacksOf, Collector.result?, hconcluding, Log.callbacks]
  | _ =>
    refine ⟨deliveries, h.keep rfl rfl rfl (fun key => ?_) (by simp) rfl, (List.append_nil _).symm⟩
    rw [pendingCount, heldBy_hired]
    exact Nat.le_refl _

/-! ## 4. Every run -/

/-- **The keys that are taken are those of the items**, each the key of one item. -/
structure Batch.Keyed (batch : Batch) : Prop where
  keys_eq : batch.keys = keysOf batch.items
  keys_nodup : (keysOf batch.items).Nodup

/-- What has the items and the keys of a batch is keyed as the batch is. -/
theorem Batch.Keyed.of_eq {batch batch' : Batch} (h : batch.Keyed)
    (hitems : batch'.items = batch.items) (hkeys : batch'.keys = batch.keys) : batch'.Keyed :=
  ⟨by rw [hkeys, hitems, h.keys_eq], by rw [hitems]; exact h.keys_nodup⟩

theorem Batch.Keyed.blank : (Batch.ofItems []).Keyed := ⟨rfl, List.nodup_nil⟩

theorem Batch.Keyed.clone {batch : Batch} (h : batch.Keyed) : batch.clone.Keyed := h.of_eq rfl rfl

/-- A copy is the batch that the items alone would make. -/
theorem Batch.Keyed.clone_eq {batch : Batch} (h : batch.Keyed) :
    batch.clone = .ofItems batch.items := by
  rw [Batch.clone, h.keys_eq]
  rfl

/-- What may be added has a key of its own. -/
theorem Batch.Keyed.add {batch : Batch} {item : BatchItem} (h : batch.Keyed)
    (hallowed : batch.addFault? item.key = none) : (batch.add item).Keyed := by
  have hfree : batch.contains item.key = false := by
    refine Bool.eq_false_iff.mpr fun htaken => ?_
    unfold addFault? at hallowed
    split_ifs at hallowed
  have hnew : item.key ∉ keysOf batch.items := by
    rw [← h.keys_eq]
    simpa [contains] using hfree
  refine ⟨by simp [Batch.add, hfree, h.keys_eq], ?_⟩
  rw [Batch.add, keysOf_append, keysOf_cons, keysOf_nil]
  refine List.nodup_append.mpr ⟨h.keys_nodup, List.nodup_singleton _, ?_⟩
  rintro key hkey _ hself rfl
  exact hnew (List.mem_singleton.mp hself ▸ hkey)

/-- A team with what its user has been told: either nothing has happened, or there is one leader and
the ledger is kept. -/
inductive Team.Balanced : Team → List Callback → Prop
  | waiting {batch : Batch} (keyed : batch.Keyed)
    (unstarted : batch.started = false) (queue_eq : batch.queue = [])
    (channel_eq : batch.channel = []) : Balanced ⟨batch, [], []⟩ []
  | running {batch : Batch} {workers : List WorkerStage} {collector : Collector}
    {deliveries : List Delivery} (keyed : batch.Keyed)
    (started : batch.started = true) (leading : collector.leads = true)
    (ledger : Ledger batch workers collector deliveries) :
    Balanced ⟨batch, [collector], workers⟩ (callbacksOf deliveries collector.result?)

theorem Team.Balanced.keyed {team : Team} {callbacks : List Callback}
    (h : team.Balanced callbacks) : team.batch.Keyed := by
  cases h with
  | waiting hkeys => exact hkeys
  | running hkeys => exact hkeys

theorem Team.Balanced.keys_nodup {team : Team} {callbacks : List Callback}
    (h : team.Balanced callbacks) : (keysOf team.batch.items).Nodup := h.keyed.keys_nodup

/-- What a batch tells its user accounts for its items at any time. -/
theorem Team.Balanced.accounts {team : Team} {callbacks : List Callback}
    (h : team.Balanced callbacks) :
    ∃ deliveries result?, callbacks = callbacksOf deliveries result? ∧
      Accounts (keysOf team.batch.items) deliveries result? := by
  cases h with
  | waiting hkeys =>
    have hnone : ∀ result, result ∉ (none : Option BatchEnd) := fun _ h => nomatch h
    exact ⟨[], none, rfl, List.nodup_nil, List.forall_mem_nil _, fun _ h => absurd h (hnone _),
      fun _ _ h => absurd h (by simp), fun _ h => absurd h (hnone _)⟩
  | running hkeys hstarted hleads hledger => exact ⟨_, _, rfl, hledger.accounts hkeys.keys_nodup⟩

theorem StopMove.batch_frame {batch batch' : Batch} {stage stage' : StopStage}
    {events : List Event} (h : StopMove batch stage batch' stage' events) :
    batch'.items = batch.items ∧ batch'.started = batch.started ∧ batch'.queue = batch.queue ∧
      batch'.channel = batch.channel := by
  cases h <;> exact ⟨rfl, rfl, rfl, rfl⟩

theorem CollectorMove.batch_frame {id limit hired : Nat} {crew : Crew} {batch batch' : Batch}
    {collector collector' : Collector} {events : List Event} (hleads : collector.leads = true)
    (h : CollectorMove id limit crew batch collector batch' collector' hired events) :
    batch'.items = batch.items ∧ batch'.started = batch.started := by
  cases h with
  | started => cases hleads
  | _ => exact ⟨rfl, rfl⟩

theorem StopMove.keys_eq {batch batch' : Batch} {stage stage' : StopStage} {events : List Event}
    (h : StopMove batch stage batch' stage' events) : batch'.keys = batch.keys := by
  cases h <;> rfl

theorem WorkerMove.keys_eq {id depth timeoutMs : Nat} {pool pool' : Pool} {batch batch' : Batch}
    {stage stage' : WorkerStage} {events : List Event}
    (h : WorkerMove id depth timeoutMs pool batch stage pool' batch' stage' events) :
    batch'.keys = batch.keys := by
  cases h <;> rfl

theorem CollectorMove.keys_eq {id limit hired : Nat} {crew : Crew} {batch batch' : Batch}
    {collector collector' : Collector} {events : List Event}
    (h : CollectorMove id limit crew batch collector batch' collector' hired events) :
    batch'.keys = batch.keys := by
  cases h <;> rfl

theorem append_cons_eq_singleton {α : Type} {before after : List α} {a b : α}
    (h : before ++ a :: after = [b]) : before = [] ∧ a = b ∧ after = [] := by
  cases before with
  | nil =>
    obtain ⟨rfl, rfl⟩ := List.cons_eq_cons.mp h
    exact ⟨rfl, rfl, rfl⟩
  | cons c before =>
    have htail := (List.cons_eq_cons.mp h).2
    exact absurd htail (by simp)

/-- **Every step of a team** keeps it balanced. -/
theorem Team.Balanced.step {id limit depth timeoutMs : Nat} {serving : Bool} {team team' : Team}
    {callbacks : List Callback} {events : Log} (h : team.Balanced callbacks)
    (hstep : TeamMove id limit depth timeoutMs team serving team' events) :
    team'.Balanced (callbacks ++ events.callbacks id) := by
  cases h with
  | @waiting batch hkeys hunstarted hqueue hchannel =>
    cases hstep with
    | @grow item hallowed =>
      exact .waiting (hkeys.add hallowed) hunstarted hqueue hchannel
    | start before after _ hleads =>
      obtain ⟨rfl, rfl⟩ := List.append_eq_nil_iff.mp hleads.symm
      have hledger : Ledger { batch with started := true } [] .launched [] :=
        .launched hqueue hchannel
      refine .running ?_ rfl rfl hledger
      exact hkeys.of_eq rfl rfl
    | lead hleads => exact absurd hleads (by simp)
    | work hworkers => exact absurd hworkers (by simp)
    | stop hmove =>
      obtain ⟨hitems, hstarted, hqueue', hchannel'⟩ := hmove.batch_frame
      rw [hmove.callbacks_eq]
      exact .waiting (hkeys.of_eq hitems hmove.keys_eq) (hstarted.trans hunstarted)
        (hqueue'.trans hqueue) (hchannel'.trans hchannel)
  | @running batch workers collector deliveries hkeys hstarted hleads hledger =>
    cases hstep with
    | grow hallowed =>
      simp [Batch.addFault?, hstarted] at hallowed
    | start before after hunstarted => exact absurd (hstarted.symm.trans hunstarted) (by simp)
    | lead hself _ hmove =>
      obtain ⟨rfl, rfl, rfl⟩ := append_cons_eq_singleton hself.symm
      obtain ⟨deliveries', hledger', hcallbacks⟩ := hledger.lead hleads hmove
      obtain ⟨hitems, hstarted'⟩ := hmove.batch_frame hleads
      rw [← hcallbacks]
      exact .running (hkeys.of_eq hitems hmove.keys_eq) (hstarted'.trans hstarted)
        (hmove.leads hleads) hledger'
    | work hworkers hmove =>
      obtain ⟨hitems, hstarted'⟩ := hmove.batch_frame
      cases hworkers
      rw [hmove.callbacks_eq, List.append_nil]
      exact .running (hkeys.of_eq hitems hmove.keys_eq) (hstarted'.trans hstarted) hleads
        (hledger.work hmove)
    | stop hmove =>
      obtain ⟨hitems, hstarted', hqueue, hchannel⟩ := hmove.batch_frame
      rw [hmove.callbacks_eq, List.append_nil]
      refine .running (hkeys.of_eq hitems hmove.keys_eq) (hstarted'.trans hstarted) hleads
        ⟨hledger.completed_eq, hledger.errors_eq, fun key => ?_, fun hstage => ?_,
          fun result hresult => ?_⟩
      · rw [hitems]
        refine Nat.le_trans (Nat.le_of_eq ?_) (hledger.count_le key)
        rw [pendingCount, Batch.pending, hqueue, hchannel]
        rfl
      · rw [hchannel]
        exact hledger.blank hstage
      · rw [hitems]
        exact hledger.ended result hresult

/-- **The accounts of every batch are kept in every run.** -/
theorem Team.Balanced.lasting : Team.Lasting Team.Balanced where
  blank := .waiting .blank rfl rfl rfl
  copied h := .waiting h.keyed.clone rfl rfl rfl
  polled h := by
    refine .running ?_ rfl rfl (.launched rfl rfl)
    exact h.keyed.of_eq rfl rfl
  step h hstep := h.step hstep

/-- **The keys that are taken are those of the items in every run.** -/
theorem World.Reachable.keyed {config : Config} {world : World} {id : Nat} {batch : Batch}
    (h : Reachable config world) (hfound : world.machine.batches[id]? = some batch) :
    batch.Keyed :=
  ((h.holds Team.Balanced.lasting).teams id _ (Machine.team?_eq hfound)).keyed

end RemoteCall.Client
