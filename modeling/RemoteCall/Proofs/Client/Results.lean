/-
# What users are told

What an execution of a call returns, and what the user of a batch is told of an item, is read from a
response that was decoded for that call or item (`World.Reachable.returns` and
`World.Reachable.tells`).  A worker makes a delivery of each response that it decodes; from then on
the delivery is in the channel of the batch, with the collector, or with the user, and no other step
makes one (`Step.carries`).
-/
import RemoteCall.Proofs.Client.Requests

namespace RemoteCall.Client

/-! ## 1. Deliveries on their way -/

/-- The delivery that a collector has at hand. -/
def Collector.delivery? (collector : Collector) : Option Delivery :=
  match collector.stage with
  | .inspecting (.delivery delivery) | .delivering delivery => some delivery
  | _ => none

/-- A delivery of batch `id` is on its way to the user, or has come there. -/
inductive Machine.Carries (machine : Machine) (log : Log) (id : Nat) (delivery : Delivery) : Prop
  | reported {batch : Batch} (found : machine.batches[id]? = some batch)
    (mem : .delivery delivery ∈ batch.channel) : Carries machine log id delivery
  | noted {collector : Collector} (mem : .collecting id collector ∈ machine.tasks)
    (noted : collector.delivery? = some delivery) : Carries machine log id delivery
  | told (mem : .delivery delivery ∈ log.callbacks id) : Carries machine log id delivery

/-- The delivery is what the response to an item of batch `id` gives. -/
def Machine.Yields (machine : Machine) (log : Log) (id : Nat) (delivery : Delivery) : Prop :=
  ∃ batch item frame, machine.batches[id]? = some batch ∧ item ∈ batch.items ∧
    .decoded (.item id item.key) frame ∈ log ∧ delivery = WorkerStage.delivery item frame

section

variable {id depth timeoutMs limit hired : Nat} {pool pool' : Pool} {batch batch' : Batch}
  {delivery : Delivery} {events : List Event}

/-- A worker reports what it has decoded. -/
theorem WorkerMove.reports {stage stage' : WorkerStage}
    (h : WorkerMove id depth timeoutMs pool batch stage pool' batch' stage' events)
    (hmem : .delivery delivery ∈ batch'.channel) :
    .delivery delivery ∈ batch.channel ∨ ∃ item ∈ stage.held, ∃ frame,
      .decoded (.item id item.key) frame ∈ events ∧
        delivery = WorkerStage.delivery item frame := by
  cases h with
  | @reported conn slot item frame =>
    rcases List.mem_append.mp hmem with hmem | hmem
    · exact .inl hmem
    · cases List.mem_singleton.mp hmem
      exact .inr ⟨item, List.mem_cons_self .., frame, List.mem_singleton_self _, rfl⟩
  | failed =>
    rcases List.mem_append.mp hmem with hmem | hmem
    · exact .inl hmem
    · cases List.mem_singleton.mp hmem
  | _ => exact .inl hmem

/-- A collector hands deliveries on. -/
theorem CollectorMove.carries {crew : Crew} {collector collector' : Collector}
    (h : CollectorMove id limit crew batch collector batch' collector' hired events)
    (hcarries : .delivery delivery ∈ batch'.channel ∨ collector'.delivery? = some delivery ∨
      .delivery delivery ∈ Log.callbacks events id) :
    .delivery delivery ∈ batch.channel ∨ collector.delivery? = some delivery := by
  cases h with
  | took hfound =>
    rw [hfound]
    rcases hcarries with hmem | hnoted | htold
    · exact .inl (List.mem_cons_of_mem _ hmem)
    · rename_i report channel completed errors
      cases report with
      | delivery made =>
        cases hnoted
        exact .inl (List.mem_cons_self ..)
      | failed error => cases hnoted
    · exact absurd htold List.not_mem_nil
  | accepted =>
    rcases hcarries with hmem | hnoted | htold
    · exact .inl hmem
    · exact .inr hnoted
    · exact absurd htold List.not_mem_nil
  | @delivered made =>
    rcases hcarries with hmem | hnoted | htold
    · exact .inl hmem
    · cases made <;> cases hnoted
    · simp only [Log.callbacks, List.filterMap_cons, if_true, List.filterMap_nil] at htold
      cases List.mem_singleton.mp htold
      exact .inr rfl
  | concluded =>
    rcases hcarries with hmem | hnoted | htold
    · exact .inl hmem
    · cases hnoted
    · simp [Log.callbacks] at htold
  | _ =>
    rcases hcarries with hmem | hnoted | htold
    · exact .inl hmem
    · cases hnoted
    · exact absurd htold List.not_mem_nil

end

section

variable {machine machine' : Machine} {mover? : Option Task} {log events : Log} {id : Nat}
  {delivery : Delivery}

/-- The collectors that there are after a step were there before, are new, or have taken the
step. -/
theorem Step.collectors (h : Step machine mover? machine' events) {collector' : Collector}
    (hmem : .collecting id collector' ∈ machine'.tasks) :
    .collecting id collector' ∈ machine.tasks ∨ collector' = .new ∨ collector' = .launched ∨
      ∃ batch batch' collector hired, machine.batches[id]? = some batch ∧
        .collecting id collector ∈ machine.tasks ∧
        CollectorMove id machine.workerLimit (machine.crew id) batch collector batch' collector'
          hired events := by
  cases h with
  | newCall | newBatch | addItem => exact .inl hmem
  | spawn hfresh =>
    rcases List.mem_append.mp hmem with hmem | hself
    · exact .inl hmem
    · cases List.mem_singleton.mp hself
      cases hfresh
      exact .inr (.inl rfl)
  | enqueue | poll =>
    rcases List.mem_append.mp hmem with hmem | hself
    · exact .inl hmem
    · cases List.mem_singleton.mp hself
      exact .inr (.inr (.inl rfl))
  | executing htasks | cancelling htasks | working htasks | stopping htasks =>
    rcases mem_around.mp hmem with hmem | hself
    · exact .inl (htasks ▸ mem_around.mpr (.inl hmem))
    · cases hself
  | collecting htasks hfound hmove =>
    have hmem := (List.mem_append.mp hmem).resolve_right (by simp)
    rcases mem_around.mp hmem with hmem | hself
    · exact .inl (htasks ▸ mem_around.mpr (.inl hmem))
    · cases hself
      exact .inr (.inr (.inr ⟨_, _, _, _, hfound, htasks ▸ mem_around.mpr (.inr rfl), hmove⟩))

/-- Only a collector tells the user of a batch anything. -/
theorem Step.tells (h : Step machine mover? machine' events) {callback : Callback}
    (hmem : callback ∈ Log.callbacks events id) :
    ∃ batch batch' collector collector' hired, machine.batches[id]? = some batch ∧
      .collecting id collector ∈ machine.tasks ∧
      CollectorMove id machine.workerLimit (machine.crew id) batch collector batch' collector'
        hired events := by
  cases h with
  | @collecting before after other hired collector collector' batch batch' events htasks hfound
      hmove =>
    by_cases hself : other = id
    · subst hself
      exact ⟨_, _, _, _, _, hfound, htasks ▸ mem_around.mpr (.inr rfl), hmove⟩
    · rw [hmove.callbacks_eq hself] at hmem
      exact absurd hmem List.not_mem_nil
  | executing htasks hfound hmove =>
    rw [hmove.callbacks_eq] at hmem
    exact absurd hmem List.not_mem_nil
  | working htasks hfound hmove =>
    rw [hmove.callbacks_eq] at hmem
    exact absurd hmem List.not_mem_nil
  | cancelling htasks hfound hmove => cases hmove <;> exact absurd hmem List.not_mem_nil
  | stopping htasks hfound hmove => cases hmove <;> exact absurd hmem List.not_mem_nil
  | _ => exact absurd hmem List.not_mem_nil

/-- **Only a worker that decodes a response makes a delivery.** -/
theorem Step.carries (h : Step machine mover? machine' events)
    (hcarries : machine'.Carries (log ++ events) id delivery) :
    machine.Carries log id delivery ∨ ∃ batch stage item frame,
      machine.batches[id]? = some batch ∧ .working id stage ∈ machine.tasks ∧ item ∈ stage.held ∧
        .decoded (.item id item.key) frame ∈ events ∧
          delivery = WorkerStage.delivery item frame := by
  -- a collector has what it hands on from the channel
  have hcollector : ∀ {batch batch' collector collector' hired}, machine.batches[id]? = some batch →
      .collecting id collector ∈ machine.tasks →
      CollectorMove id machine.workerLimit (machine.crew id) batch collector batch' collector'
        hired events →
      (.delivery delivery ∈ batch'.channel ∨ collector'.delivery? = some delivery ∨
        .delivery delivery ∈ Log.callbacks events id) → machine.Carries log id delivery := by
    intro batch batch' collector collector' hired hfound htask hmove hcarries
    exact (hmove.carries hcarries).elim (.reported hfound) (.noted htask)
  cases hcarries with
  | reported hfound' hmem =>
    cases h with
    | newBatch hknown =>
      rcases getElem?_of_append_singleton hfound' with hfound | ⟨-, rfl⟩
      · exact .inl (.reported hfound hmem)
      · rcases hknown with rfl | ⟨template, -, rfl⟩ <;> exact absurd hmem List.not_mem_nil
    | poll =>
      rcases getElem?_of_append_singleton hfound' with hfound | ⟨-, rfl⟩
      · exact .inl (.reported hfound hmem)
      · exact absurd hmem List.not_mem_nil
    | addItem hfound | enqueue hfound =>
      rcases getElem?_of_set hfound' with ⟨rfl, rfl⟩ | hfound'
      · exact .inl (.reported hfound hmem)
      · exact .inl (.reported hfound' hmem)
    | collecting htasks hfound hmove =>
      rcases getElem?_of_set hfound' with ⟨rfl, rfl⟩ | hfound'
      · exact .inl (hcollector hfound (htasks ▸ mem_around.mpr (.inr rfl)) hmove (.inl hmem))
      · exact .inl (.reported hfound' hmem)
    | @working before after other stage stage' batch batch' pool' events htasks hfound hmove =>
      rcases getElem?_of_set hfound' with ⟨rfl, rfl⟩ | hfound'
      · rcases hmove.reports hmem with hmem | ⟨item, hitem, frame, hdecoded, hdelivery⟩
        · exact .inl (.reported hfound hmem)
        · exact .inr ⟨batch, stage, item, frame, hfound, htasks ▸ mem_around.mpr (.inr rfl), hitem,
            hdecoded, hdelivery⟩
      · exact .inl (.reported hfound' hmem)
    | stopping htasks hfound hmove =>
      rcases getElem?_of_set hfound' with ⟨rfl, rfl⟩ | hfound'
      · rw [hmove.batch_frame.2.2.2] at hmem
        exact .inl (.reported hfound hmem)
      · exact .inl (.reported hfound' hmem)
    | _ => exact .inl (.reported hfound' hmem)
  | noted hmem hnoted =>
    rcases h.collectors hmem with hmem | rfl | rfl | ⟨_, _, _, _, hfound, htask, hmove⟩
    · exact .inl (.noted hmem hnoted)
    · cases hnoted
    · cases hnoted
    · exact .inl (hcollector hfound htask hmove (.inr (.inl hnoted)))
  | told hmem =>
    rw [Log.callbacks_append] at hmem
    rcases List.mem_append.mp hmem with hmem | hmem
    · exact .inl (.told hmem)
    · obtain ⟨_, _, _, _, _, hfound, htask, hmove⟩ := h.tells hmem
      exact .inl (hcollector hfound htask hmove (.inr (.inr hmem)))

/-- What an item yields it goes on yielding. -/
theorem Machine.Yields.step (hyields : machine.Yields log id delivery)
    (h : Step machine mover? machine' events) : machine'.Yields (log ++ events) id delivery := by
  obtain ⟨batch, item, frame, hfound, hitem, hdecoded, hdelivery⟩ := hyields
  obtain ⟨batch', hfound', hitems⟩ := h.batches_kept hfound
  exact ⟨batch', item, frame, hfound', hitems item hitem, List.mem_append_left _ hdecoded,
    hdelivery⟩

end

/-- Whatever is on its way to the user of a batch is what an item yields. -/
theorem World.Reachable.yields {config : Config} {world : World} (h : Reachable config world)
    {id : Nat} {delivery : Delivery} (hcarries : world.machine.Carries world.log id delivery) :
    world.machine.Yields world.log id delivery := by
  refine @Reachable.induct config (fun machine log => machine.Carries log id delivery →
    machine.Yields log id delivery) (fun hcarries => ?_)
    (fun {machine mover? machine' log events} hreachable hyields hstep hcarries => ?_) world h
    hcarries
  · cases hcarries with
    | reported hfound => cases hfound
    | noted hmem => exact absurd hmem List.not_mem_nil
    | told hmem => exact absurd hmem List.not_mem_nil
  · rcases hstep.carries hcarries with
      hcarries | ⟨batch, stage, item, frame, hfound, htask, hitem, hdecoded, hdelivery⟩
    · exact (hyields hcarries).step hstep
    · have hstocked : machine.Holds Team.Stocked log := hreachable.holds Team.Stocked.lasting
      obtain ⟨-, hheld⟩ := hstocked.teams id _ (Machine.team?_eq hfound)
      have hworker : stage ∈ machine.tasks.filterMap (Task.worker? id) :=
        List.mem_filterMap.mpr ⟨_, htask, Task.worker?_self⟩
      obtain ⟨batch', hfound', hitems⟩ := hstep.batches_kept hfound
      exact ⟨batch', item, frame, hfound', hitems item (hheld stage hworker item hitem),
        List.mem_append_right _ hdecoded, hdelivery⟩

/-- **What the user of a batch is told of an item** is what the response to the item gives. -/
theorem World.Reachable.tells {config : Config} {world : World} (h : Reachable config world)
    {id : Nat} {delivery : Delivery} (htold : .delivery delivery ∈ world.log.callbacks id) :
    world.machine.Yields world.log id delivery := h.yields (.told htold)

/-! ## 2. Results of calls -/

/-- The datum is what the response to call `id` gives. -/
def Machine.Returns (machine : Machine) (log : Log) (id : Nat) (datum : Datum) : Prop :=
  ∃ call frame, machine.calls[id]? = some call ∧ .decoded (.call id) frame ∈ log ∧
    Response.decodeWith call.decoder frame = .ok datum

/-- An execution returns what it has decoded, or an error. -/
theorem CallMove.decodes {id : Nat} {pool pool' : Pool} {call call' : Call}
    {stage : CallStage} {datum : Datum} {events : List Event}
    (h : CallMove id pool call stage pool' call' (.finished (.ok datum)) events) :
    ∃ frame, .decoded (.call id) frame ∈ events ∧
      Response.decodeWith call.decoder frame = .ok datum := by
  generalize hstage : CallStage.finished (.ok datum) = stage' at h
  cases h with
  | @decoded _ frame =>
    exact ⟨frame, List.mem_singleton_self _, (CallStage.finished.inj hstage).symm⟩
  | _ => cases hstage

section

variable {machine machine' : Machine} {mover? : Option Task} {log events : Log} {id : Nat}

/-- The executions that there are after a step were there before, are new, or have taken the
step. -/
theorem Step.executions (h : Step machine mover? machine' events) {stage' : CallStage}
    (hmem : .executing id stage' ∈ machine'.tasks) :
    .executing id stage' ∈ machine.tasks ∨ stage' = .entry ∨
      ∃ pool' call call' stage, machine.calls[id]? = some call ∧
        CallMove id machine.pool call stage pool' call' stage' events := by
  cases h with
  | newCall | newBatch | addItem => exact .inl hmem
  | spawn hfresh =>
    rcases List.mem_append.mp hmem with hmem | hself
    · exact .inl hmem
    · cases List.mem_singleton.mp hself
      cases hfresh
      exact .inr (.inl rfl)
  | enqueue | poll => exact .inl ((List.mem_append.mp hmem).resolve_right (by simp))
  | executing htasks hfound hmove =>
    rcases mem_around.mp hmem with hmem | hself
    · exact .inl (htasks ▸ mem_around.mpr (.inl hmem))
    · cases hself
      exact .inr (.inr ⟨_, _, _, _, hfound, hmove⟩)
  | cancelling htasks | working htasks | stopping htasks =>
    rcases mem_around.mp hmem with hmem | hself
    · exact .inl (htasks ▸ mem_around.mpr (.inl hmem))
    · cases hself
  | collecting htasks =>
    have hmem := (List.mem_append.mp hmem).resolve_right (by simp)
    rcases mem_around.mp hmem with hmem | hself
    · exact .inl (htasks ▸ mem_around.mpr (.inl hmem))
    · cases hself

/-- What a response to a call gives it goes on giving. -/
theorem Machine.Returns.step {datum : Datum} (hreturns : machine.Returns log id datum)
    (h : Step machine mover? machine' events) : machine'.Returns (log ++ events) id datum := by
  obtain ⟨call, frame, hfound, hdecoded, hdatum⟩ := hreturns
  obtain ⟨call', hfound', hkeeps⟩ := h.calls_kept hfound
  exact ⟨call', frame, hfound', List.mem_append_left _ hdecoded, hkeeps.decoder_eq ▸ hdatum⟩

end

/-- **What an execution of a call returns** is what the response to the call gives. -/
theorem World.Reachable.returns {config : Config} {world : World} (h : Reachable config world)
    {id : Nat} {datum : Datum}
    (hfinished : .executing id (.finished (.ok datum)) ∈ world.machine.tasks) :
    world.machine.Returns world.log id datum := by
  refine @Reachable.induct config (fun machine log =>
    .executing id (.finished (.ok datum)) ∈ machine.tasks → machine.Returns log id datum)
    (fun hmem => absurd hmem List.not_mem_nil)
    (fun {machine mover? machine' log events} _ hreturns hstep hmem => ?_) world h hfinished
  rcases hstep.executions hmem with hmem | hentry | ⟨pool', call, call', stage, hfound, hmove⟩
  · exact (hreturns hmem).step hstep
  · cases hentry
  · obtain ⟨frame, hdecoded, hdatum⟩ := hmove.decodes
    obtain ⟨call'', hfound', hkeeps⟩ := hstep.calls_kept hfound
    exact ⟨call'', frame, hfound', List.mem_append_right _ hdecoded, hkeeps.decoder_eq ▸ hdatum⟩

end RemoteCall.Client
