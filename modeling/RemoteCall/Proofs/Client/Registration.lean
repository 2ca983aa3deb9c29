/-
# Where a connection can be aborted

A connection is aborted through the places where it is registered: the call that is executed on it,
or the slot of a worker.  Whoever cancels a call or ends a batch withdraws the registration and
fires the abort handle later, so a connection can be hit after its user believes to be done with it.

What a step does to registrations is said once for all: a connection is newly registered only by
the task that leases it (`Step.registers`), what shows at a place goes on showing
(`Step.withdrawn`), and whoever aborts a registered connection shows it at its place
(`Step.exposed`).
-/
import RemoteCall.Proofs.Client.Progress
import RemoteCall.Proofs.Client.Requests

namespace RemoteCall.Client

/-! ## 1. Places of registration -/

/-- Where a connection can be registered for abortion. -/
inductive Place where
  | call (id : Nat)
  | slot (batch n : Nat)
  deriving DecidableEq, Repr

/-- The connection is registered at a place. -/
inductive Machine.Registers (machine : Machine) (conn : ConnId) : Place → Prop
  | call {id : Nat} {call : Call} (found : machine.calls[id]? = some call)
    (registered : call.abort = some conn) : Registers machine conn (.call id)
  | slot {id n : Nat} {batch : Batch} (found : machine.batches[id]? = some batch)
    (registered : batch.aborts[n]? = some (some conn)) : Registers machine conn (.slot id n)

/-- Whoever fires the abort handle of the place shows it there. -/
inductive Machine.Withdrawn (machine : Machine) : Place → Prop
  | call {id : Nat} {call : Call} (found : machine.calls[id]? = some call)
    (cancelled : call.isCancelled = true) : Withdrawn machine (.call id)
  | slot {id n : Nat} {batch : Batch} (found : machine.batches[id]? = some batch)
    (withdrawn : batch.aborts[n]? = some none) : Withdrawn machine (.slot id n)

/-- The connections that a task is going to abort. -/
def Task.firing : Task → List ConnId
  | collecting _ ⟨.firing conns _, _, _⟩ => conns
  | stopping _ (.firing conns) => conns
  | _ => []

/-- The connection has been aborted or will be. -/
def Exposed (machine : Machine) (log : Log) (conn : ConnId) : Prop :=
  log.Aborted conn ∨ ∃ task ∈ machine.tasks, conn ∈ task.firing

/-- The connection that a task has leased and not yet registered. -/
def Task.leased? : Task → Option ConnId
  | executing _ (.leased conn) | working _ (.leased conn) => some conn
  | _ => none

/-! ## 2. Registrations in a move -/

section

variable {id n depth timeoutMs limit hired : Nat} {pool pool' : Pool} {batch batch' : Batch}
  {call call' : Call} {conn : ConnId} {events : List Event}

/-- An execution registers its own connection only. -/
theorem CallMove.abort_eq {stage stage' : CallStage}
    (h : CallMove id pool call stage pool' call' stage' events) (habort : call'.abort = some conn) :
    call.abort = some conn ∨ stage = .leased conn := by
  cases h with
  | registered =>
    cases habort
    exact .inr rfl
  | withdrawn => cases habort
  | _ => exact .inl habort

theorem CancelMove.abort_eq {stage stage' : CancelStage}
    (h : CancelMove call stage call' stage' events) (habort : call'.abort = some conn) :
    call.abort = some conn := by
  cases h with
  | fired => cases habort
  | _ => exact habort

/-- A worker registers its own connection only. -/
theorem WorkerMove.aborts_eq {stage stage' : WorkerStage}
    (h : WorkerMove id depth timeoutMs pool batch stage pool' batch' stage' events)
    (habort : batch'.aborts[n]? = some (some conn)) :
    batch.aborts[n]? = some (some conn) ∨ stage = .leased conn := by
  cases h with
  | @registered _ other =>
    rw [List.getElem?_append] at habort
    split at habort
    · exact .inl habort
    · cases List.mem_singleton.mp (List.mem_of_getElem? habort)
      exact .inr rfl
  | @drained _ slot =>
    left
    simp only [Batch.unregister, List.getElem?_set] at habort
    split at habort
    · split at habort <;> simp at habort
    · exact habort
  | _ => exact .inl habort

theorem Batch.aborts_sweep (batch : Batch) (n : Nat) :
    batch.sweep.aborts[n]? = batch.aborts[n]?.map fun _ => none :=
  List.getElem?_map

theorem CollectorMove.aborts_eq {crew : Crew} {collector collector' : Collector}
    (h : CollectorMove id limit crew batch collector batch' collector' hired events)
    (habort : batch'.aborts[n]? = some (some conn)) : batch.aborts[n]? = some (some conn) := by
  cases h with
  | swept =>
    rw [Batch.aborts_sweep] at habort
    obtain ⟨-, -, hnone⟩ := Option.map_eq_some_iff.mp habort
    cases hnone
  | concluded => cases habort
  | _ => exact habort

theorem StopMove.aborts_eq {stage stage' : StopStage}
    (h : StopMove batch stage batch' stage' events)
    (habort : batch'.aborts[n]? = some (some conn)) : batch.aborts[n]? = some (some conn) := by
  cases h with
  | swept =>
    rw [Batch.aborts_sweep] at habort
    obtain ⟨-, -, hnone⟩ := Option.map_eq_some_iff.mp habort
    cases hnone
  | _ => exact habort

/-- A slot that is empty stays empty. -/
theorem WorkerMove.aborts_none {stage stage' : WorkerStage}
    (h : WorkerMove id depth timeoutMs pool batch stage pool' batch' stage' events)
    (habort : batch.aborts[n]? = some none) : batch'.aborts[n]? = some none := by
  cases h with
  | registered =>
    rw [List.getElem?_append_left (List.getElem?_eq_some_iff.mp habort).1]
    exact habort
  | @drained _ slot =>
    simp only [Batch.unregister]
    rw [getElem?_set_or habort]
    split <;> rfl
  | _ => exact habort

/-- A slot that is empty stays empty until the batch is concluded. -/
theorem CollectorMove.aborts_none {crew : Crew} {collector collector' : Collector}
    (h : CollectorMove id limit crew batch collector batch' collector' hired events)
    (hgoing : collector.stage.isClosing = false) (habort : batch.aborts[n]? = some none) :
    batch'.aborts[n]? = some none := by
  cases h with
  | swept => rw [Batch.aborts_sweep, habort, Option.map_some]
  | concluded hconcluding =>
    rw [hconcluding] at hgoing
    cases hgoing
  | _ => exact habort

theorem StopMove.aborts_none {stage stage' : StopStage}
    (h : StopMove batch stage batch' stage' events) (habort : batch.aborts[n]? = some none) :
    batch'.aborts[n]? = some none := by
  cases h with
  | swept => rw [Batch.aborts_sweep, habort, Option.map_some]
  | _ => exact habort

/-- What a batch has registered is empty after a sweep. -/
theorem Batch.exists_slot (h : conn ∈ batch.registered) :
    ∃ n : Nat, batch.aborts[n]? = some (some conn) ∧ batch.sweep.aborts[n]? = some none := by
  obtain ⟨abort, hmem, hconn⟩ := List.mem_filterMap.mp h
  obtain ⟨n, hn⟩ := List.mem_iff_getElem?.mp hmem
  cases hconn
  exact ⟨n, hn, by rw [Batch.aborts_sweep, hn, Option.map_some]⟩

/-- What a collector is about to abort was about to be aborted before or was registered. -/
theorem CollectorMove.firing_eq {crew : Crew} {collector collector' : Collector}
    (h : CollectorMove id limit crew batch collector batch' collector' hired events)
    (hfires : conn ∈ (Task.collecting id collector').firing ∨ .effect (.abort conn) ∈ events) :
    conn ∈ (Task.collecting id collector).firing ∨
      ∃ n : Nat, batch.aborts[n]? = some (some conn) ∧ batch'.aborts[n]? = some none := by
  cases h with
  | swept =>
    rcases hfires with hfires | habort
    · exact .inr (Batch.exists_slot hfires)
    · exact absurd habort List.not_mem_nil
  | fired =>
    rcases hfires with hfires | habort
    · exact .inl (List.mem_cons_of_mem _ hfires)
    · cases List.mem_singleton.mp habort
      exact .inl (List.mem_cons_self ..)
  | delivered =>
    rename_i delivery completed errors
    rcases hfires with hfires | habort
    · cases delivery <;> exact absurd hfires List.not_mem_nil
    · simp at habort
  | concluded =>
    rcases hfires with hfires | habort
    · exact absurd hfires List.not_mem_nil
    · simp at habort
  | _ =>
    rcases hfires with hfires | habort
    · exact absurd hfires List.not_mem_nil
    · simp at habort

theorem StopMove.firing_eq {stage stage' : StopStage}
    (h : StopMove batch stage batch' stage' events)
    (hfires : conn ∈ (Task.stopping id stage').firing ∨ .effect (.abort conn) ∈ events) :
    conn ∈ (Task.stopping id stage).firing ∨
      ∃ n : Nat, batch.aborts[n]? = some (some conn) ∧ batch'.aborts[n]? = some none := by
  cases h with
  | flagged =>
    rcases hfires with hfires | habort
    · exact absurd hfires List.not_mem_nil
    · exact absurd habort List.not_mem_nil
  | swept =>
    rcases hfires with hfires | habort
    · exact .inr (Batch.exists_slot hfires)
    · exact absurd habort List.not_mem_nil
  | fired =>
    rcases hfires with hfires | habort
    · exact .inl (List.mem_cons_of_mem _ hfires)
    · cases List.mem_singleton.mp habort
      exact .inl (List.mem_cons_self ..)

/-- An execution aborts nothing. -/
theorem CallMove.no_abort {stage stage' : CallStage}
    (h : CallMove id pool call stage pool' call' stage' events) :
    .effect (.abort conn) ∉ events := by
  cases h with
  | @panicked _ other => simp [Pool.giveBackEvents, Pool.giveBack]
  | @released other broken => cases broken <;> simp [Pool.giveBackEvents, Pool.giveBack]
  | _ => simp

/-- A worker aborts its own connection only, when it is turned away. -/
theorem WorkerMove.abort_eq {stage stage' : WorkerStage}
    (h : WorkerMove id depth timeoutMs pool batch stage pool' batch' stage' events)
    (habort : .effect (.abort conn) ∈ events) : stage = .leased conn := by
  cases h with
  | turnedAway =>
    cases List.mem_singleton.mp habort
    rfl
  | @panicked _ other => simp [Pool.giveBackEvents, Pool.giveBack] at habort
  | @released other broken => cases broken <;> simp [Pool.giveBackEvents, Pool.giveBack] at habort
  | _ => simp at habort

theorem CancelMove.abort_registered {stage stage' : CancelStage}
    (h : CancelMove call stage call' stage' events) (habort : .effect (.abort conn) ∈ events) :
    stage = .claimed ∧ call.abort = some conn := by
  cases h with
  | fired hfound =>
    cases List.mem_singleton.mp habort
    exact ⟨rfl, hfound⟩
  | _ => exact absurd habort List.not_mem_nil

end

/-! ## 3. Registrations in a step -/

section

variable {machine machine' : Machine} {mover? : Option Task} {log events : Log} {conn : ConnId}
  {place : Place}

/-- A connection is newly registered only by the task that leases it. -/
theorem Step.registers (h : Step machine mover? machine' events)
    (hregisters : machine'.Registers conn place) :
    machine.Registers conn place ∨ mover?.bind Task.leased? = some conn := by
  cases hregisters with
  | @call id call' hfound' habort =>
    cases h with
    | newCall request decoder =>
      rcases getElem?_of_append_singleton hfound' with hfound | ⟨-, rfl⟩
      · exact .inl (.call hfound habort)
      · cases habort
    | executing htasks hfound hmove =>
      rcases getElem?_of_set hfound' with ⟨rfl, rfl⟩ | hfound'
      · rcases hmove.abort_eq habort with habort | rfl
        · exact .inl (.call hfound habort)
        · exact .inr rfl
      · exact .inl (.call hfound' habort)
    | cancelling htasks hfound hmove =>
      rcases getElem?_of_set hfound' with ⟨rfl, rfl⟩ | hfound'
      · exact .inl (.call hfound (hmove.abort_eq habort))
      · exact .inl (.call hfound' habort)
    | _ => exact .inl (.call hfound' habort)
  | @slot id n batch' hfound' habort =>
    cases h with
    | newBatch hknown =>
      rcases getElem?_of_append_singleton hfound' with hfound | ⟨-, rfl⟩
      · exact .inl (.slot hfound habort)
      · rcases hknown with rfl | ⟨template, -, rfl⟩ <;> cases habort
    | poll hpolled =>
      rcases getElem?_of_append_singleton hfound' with hfound | ⟨-, rfl⟩
      · exact .inl (.slot hfound habort)
      · cases habort
    | addItem hfound hallowed =>
      rcases getElem?_of_set hfound' with ⟨rfl, rfl⟩ | hfound'
      · exact .inl (.slot hfound habort)
      · exact .inl (.slot hfound' habort)
    | enqueue hfound hunstarted =>
      rcases getElem?_of_set hfound' with ⟨rfl, rfl⟩ | hfound'
      · exact .inl (.slot hfound habort)
      · exact .inl (.slot hfound' habort)
    | collecting htasks hfound hmove =>
      rcases getElem?_of_set hfound' with ⟨rfl, rfl⟩ | hfound'
      · exact .inl (.slot hfound (hmove.aborts_eq habort))
      · exact .inl (.slot hfound' habort)
    | working htasks hfound hmove =>
      rcases getElem?_of_set hfound' with ⟨rfl, rfl⟩ | hfound'
      · rcases hmove.aborts_eq habort with habort | rfl
        · exact .inl (.slot hfound habort)
        · exact .inr rfl
      · exact .inl (.slot hfound' habort)
    | stopping htasks hfound hmove =>
      rcases getElem?_of_set hfound' with ⟨rfl, rfl⟩ | hfound'
      · exact .inl (.slot hfound (hmove.aborts_eq habort))
      · exact .inl (.slot hfound' habort)
    | _ => exact .inl (.slot hfound' habort)

/-- While a worker is not over the collector does not close the batch. -/
theorem Machine.Holds.going {before after : List Task} {id : Nat} {collector : Collector}
    {batch : Batch} (h : machine.Holds Team.InOrder log)
    (htasks : machine.tasks = before ++ .collecting id collector :: after)
    (hfound : machine.batches[id]? = some batch) (hover : collector.isOver = false)
    (hlive : ∃ worker ∈ machine.workers id, worker.isOver = false) :
    collector.stage.isClosing = false := by
  refine Bool.eq_false_iff.mpr fun hclosing => ?_
  have hleads : collector.leads = true := by
    obtain ⟨stage, completed, errors⟩ := collector
    cases stage with
    | joined | concluding => rfl
    | finished | abandoned => cases hover
    | _ => cases hclosing
  have hlead : collector ∈ machine.tasks.filterMap (Task.lead? id) := by
    rw [htasks, filterMap_around_some (Task.lead?_of_leads hleads)]
    exact List.mem_append_right _ (List.mem_cons_self ..)
  obtain ⟨worker, hworker, hworking⟩ := hlive
  rw [Machine.workers_eq] at hworker
  obtain ⟨-, horderly⟩ := h.teams id _ (Machine.team?_eq hfound)
  have hover := (horderly collector hlead).workers_over hclosing worker hworker
  exact absurd (hover.symm.trans hworking) (by simp)

/-- What shows at a place goes on showing: a call stays cancelled, and a slot stays empty while
there is a worker of the batch. -/
theorem Step.withdrawn (h : Step machine mover? machine' events)
    (hordered : machine.Holds Team.InOrder log)
    (hlive : ∀ id n, place = .slot id n → ∃ worker ∈ machine.workers id, worker.isOver = false)
    (hwithdrawn : machine.Withdrawn place) : machine'.Withdrawn place := by
  cases hwithdrawn with
  | call hfound hcancelled =>
    obtain ⟨call', hfound', hkeeps⟩ := h.calls_kept hfound
    exact .call hfound' (hkeeps.cancelled hcancelled)
  | @slot id n batch hfound habort =>
    have hset : ∀ {other old new}, machine.batches[other]? = some old →
        (old.aborts[n]? = some none → new.aborts[n]? = some none) →
        ∃ batch', (machine.batches.set other new)[id]? = some batch' ∧
          (batch.aborts[n]? = some none → batch'.aborts[n]? = some none) :=
      fun hother hnew => kept_of_set
        (P := fun old new => old.aborts[n]? = some none → new.aborts[n]? = some none)
        (fun _ h => h) hfound hother hnew
    have hkept : ∃ batch', machine'.batches[id]? = some batch' ∧
        (batch.aborts[n]? = some none → batch'.aborts[n]? = some none) := by
      cases h with
      | newBatch | poll =>
        refine ⟨batch, ?_, fun h => h⟩
        rw [List.getElem?_append_left (List.getElem?_eq_some_iff.mp hfound).1, hfound]
      | addItem hother hallowed => exact hset hother fun h => h
      | enqueue hother hunstarted => exact hset hother fun h => h
      | @collecting before after other hired collector collector' batch₀ batch' events htasks
          hother hmove =>
        by_cases hself : other = id
        · subst hself
          exact hset hother (hmove.aborts_none (hordered.going htasks hother hmove.not_over
            (hlive other n rfl)))
        · exact ⟨batch, by rw [List.getElem?_set_ne hself, hfound], fun h => h⟩
      | working htasks hother hmove => exact hset hother hmove.aborts_none
      | stopping htasks hother hmove => exact hset hother hmove.aborts_none
      | _ => exact ⟨batch, hfound, fun h => h⟩
    obtain ⟨batch', hfound', habort'⟩ := hkept
    exact .slot hfound' (habort' habort)

/-- A connection is aborted, or about to be, only because it was before or was registered at a place
where it shows now, or by the worker that leases it. -/
theorem Step.exposed (h : Step machine mover? machine' events)
    (hwon : ∀ id, .cancelling id .claimed ∈ machine.tasks → machine.Withdrawn (.call id))
    (hexposed : Exposed machine' (log ++ events) conn) :
    Exposed machine log conn ∨
      (∃ place, machine.Registers conn place ∧ machine'.Withdrawn place ∧
        ∀ mover ∈ mover?, mover.grip = .free) ∨
      ∃ id, mover? = some (.working id (.leased conn)) ∧ .effect (.abort conn) ∈ events := by
  have hcases : Exposed machine log conn ∨ .effect (.abort conn) ∈ events ∨
      ∃ task ∈ machine'.tasks, conn ∈ task.firing := by
    rcases hexposed with haborted | hfires
    · exact (List.mem_append.mp haborted).imp .inl .inl
    · exact .inr (.inr hfires)
  -- the tasks that are not moved fire what they fired, and new tasks fire nothing
  have hkept : ∀ {before after : List Task} {task task' : Task},
      machine.tasks = before ++ task :: after →
      (∃ other ∈ before ++ task' :: after, conn ∈ other.firing) →
      conn ∈ task'.firing ∨ Exposed machine log conn := by
    rintro before after task task' htasks ⟨other, hother, hfires⟩
    rcases List.mem_append.mp hother with hmem | hmem
    · exact .inr (.inr ⟨other, htasks ▸ List.mem_append_left _ hmem, hfires⟩)
    · rcases List.mem_cons.mp hmem with rfl | hmem
      · exact .inl hfires
      · exact .inr (.inr ⟨other, htasks ▸ List.mem_append_right _ (List.mem_cons_of_mem _ hmem),
          hfires⟩)
  have hadded : ∀ {tasks added : List Task}, (∀ task ∈ added, task.firing = []) →
      (∃ task ∈ tasks ++ added, conn ∈ task.firing) → ∃ task ∈ tasks, conn ∈ task.firing := by
    rintro tasks added hnothing ⟨task, htask, hfires⟩
    rcases List.mem_append.mp htask with hmem | hmem
    · exact ⟨task, hmem, hfires⟩
    · rw [hnothing task hmem] at hfires
      exact absurd hfires List.not_mem_nil
  rcases hcases with hexposed | hnew
  · exact .inl hexposed
  cases h with
  | newCall | newBatch | addItem =>
    exact .inl (.inr (hnew.resolve_left List.not_mem_nil))
  | spawn hfresh =>
    refine .inl (.inr (hadded (List.forall_mem_singleton.mpr ?_)
      (hnew.resolve_left List.not_mem_nil)))
    cases hfresh <;> rfl
  | enqueue | poll =>
    exact .inl (.inr (hadded (List.forall_mem_singleton.mpr rfl)
      (hnew.resolve_left List.not_mem_nil)))
  | executing htasks hfound hmove =>
    exact .inl ((hkept htasks (hnew.resolve_left hmove.no_abort)).resolve_left List.not_mem_nil)
  | @cancelling before after id stage stage' call call' events htasks hfound hmove =>
    rcases hnew with habort | hfires
    · obtain ⟨rfl, hregistered⟩ := hmove.abort_registered habort
      have hwithdrawn := hwon id (htasks ▸ List.mem_append_right _ (List.mem_cons_self ..))
      refine .inr (.inl ⟨.call id, .call hfound hregistered, ?_, by rintro _ ⟨⟩; rfl⟩)
      cases hwithdrawn with
      | call hself hcancelled =>
        cases hfound.symm.trans hself
        refine .call (getElem?_set_or hfound) ?_
        rw [if_pos rfl]
        exact hmove.keeps.cancelled hcancelled
    · exact .inl ((hkept htasks hfires).resolve_left List.not_mem_nil)
  | @collecting before after id hired collector collector' batch batch' events htasks hfound
      hmove =>
    have hself : Exposed machine log conn ∨ conn ∈ (Task.collecting id collector').firing ∨
        .effect (.abort conn) ∈ events := by
      rcases hnew with habort | hfires
      · exact .inr (.inr habort)
      · have hnothing : ∀ task ∈ List.replicate hired (Task.working id .acquiring),
            task.firing = [] := by
          intro task htask
          rw [(List.mem_replicate.mp htask).2]
          rfl
        exact (hkept htasks (hadded hnothing hfires)).symm.imp_right .inl
    rcases hself with hexposed | hself
    · exact .inl hexposed
    · rcases hmove.firing_eq hself with hfires | ⟨n, hslot, hslot'⟩
      · exact .inl (.inr ⟨_, htasks ▸ List.mem_append_right _ (List.mem_cons_self ..), hfires⟩)
      · refine .inr (.inl ⟨.slot id n, .slot hfound hslot, .slot (getElem?_set_or hfound) ?_,
          by rintro _ ⟨⟩; rfl⟩)
        rw [if_pos rfl]
        exact hslot'
  | @working before after id stage stage' batch batch' pool' events htasks hfound hmove =>
    rcases hnew with habort | hfires
    · obtain rfl := hmove.abort_eq habort
      exact .inr (.inr ⟨id, rfl, habort⟩)
    · exact .inl ((hkept htasks hfires).resolve_left List.not_mem_nil)
  | @stopping before after id stage stage' batch batch' events htasks hfound hmove =>
    have hself : Exposed machine log conn ∨ conn ∈ (Task.stopping id stage').firing ∨
        .effect (.abort conn) ∈ events := by
      rcases hnew with habort | hfires
      · exact .inr (.inr habort)
      · exact (hkept htasks hfires).symm.imp_right .inl
    rcases hself with hexposed | hself
    · exact .inl hexposed
    · rcases hmove.firing_eq hself with hfires | ⟨n, hslot, hslot'⟩
      · exact .inl (.inr ⟨_, htasks ▸ List.mem_append_right _ (List.mem_cons_self ..), hfires⟩)
      · refine .inr (.inl ⟨.slot id n, .slot hfound hslot, .slot (getElem?_set_or hfound) ?_,
          by rintro _ ⟨⟩; rfl⟩)
        rw [if_pos rfl]
        exact hslot'

end

end RemoteCall.Client
