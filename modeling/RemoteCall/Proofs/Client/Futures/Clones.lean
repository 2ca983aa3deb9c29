/-
# What comes of a clone

The task that a future starts is the only one that runs its clone.  So it is the first execution of
a call, and returns that it was cancelled or what comes of its own exchange (`Run.CallYields`); or
it leads the batch, and ends with an account of all items (`Run.BatchYields`).  If it gets its turns
it comes to an end, unless it is kept waiting by an endpoint that does not answer.
-/
import RemoteCall.Proofs.Client.Batch.Forestalled
import RemoteCall.Proofs.Client.Futures.Course
import RemoteCall.Proofs.Client.Life.Cycle

namespace RemoteCall.Client

namespace Run

variable {config : Config} {run : Run config} {i : TaskId} {id n m : Nat}

/-! ## 1. Calls -/

/-- What the only execution of call `id` has come to at moment `m`, which began after moment `n`
when the call was `fresh`. -/
inductive CallYields (run : Run config) (i : TaskId) (id n m : Nat) (fresh : Call) :
    Except Error Datum → Prop
  | returned {b k : Nat} {call : Call} {result : Except Error Datum} (later : n ≤ b)
    (begins : run.Begins i id b) (first : run.Unbegun id b) (now : b + k = m)
    (found : (run.world m).machine.calls[id]? = some call)
    (request_eq : call.request = fresh.request) (decoder_eq : call.decoder = fresh.decoder)
    (ends : call.Ends config.acquireTimeoutMs (run.operations i b k) result) :
    CallYields run i id n m fresh result
  | panicked {b k : Nat} (later : n ≤ b) (begins : run.Begins i id b) (first : run.Unbegun id b)
    (now : b + k = m) {operation : Operation}
    (panics : (operation, .panicked) ∈ run.operations i b k) :
    CallYields run i id n m fresh (.error (.transport .callTaskFailed))

/-- A task stays there for what it was. -/
theorem task_later {task : Task} (hnm : n ≤ m)
    (htask : (run.world n).machine.tasks[i]? = some task) :
    ∃ task', (run.world m).machine.tasks[i]? = some task' ∧ task'.origin = task.origin := by
  refine run.later hnm (motive := fun world => ∃ task', world.machine.tasks[i]? = some task' ∧
    task'.origin = task.origin) ⟨task, htask, rfl⟩ ?_
  rintro world next label - ⟨before, hbefore, horigin⟩ htaken
  obtain ⟨added, horigins, -⟩ := World.step_origins htaken
  obtain ⟨after, hafter, hsame⟩ := Machine.task_of_origins horigins hbefore
  exact ⟨after, hafter, hsame.trans horigin⟩

/-- An execution that has left its entry has begun. -/
theorem begins_between {stage : CallStage} (hnm : n ≤ m)
    (hentry : (run.world n).machine.tasks[i]? = some (.executing id .entry))
    (htask : (run.world m).machine.tasks[i]? = some (.executing id stage))
    (hstage : stage ≠ .entry) : ∃ b, n ≤ b ∧ b < m ∧ run.Begins i id b := by
  induction hnm generalizing stage with
  | refl =>
    cases hentry.symm.trans htask
    exact absurd rfl hstage
  | @step m hnm ih =>
    obtain ⟨task, hbefore, horigin⟩ := task_later hnm hentry
    cases task with
    | executing other before =>
      cases horigin
      by_cases hfirst : before = .entry
      · subst hfirst
        rcases execution_next hbefore with ⟨-, hsame⟩ | ⟨hmoves, -⟩
        · cases hsame.symm.trans htask
          exact absurd rfl hstage
        · exact ⟨m, hnm, Nat.lt_succ_self m, hmoves, hbefore⟩
      · obtain ⟨b, hnb, hbm, hbegins⟩ := ih hbefore hfirst
        exact ⟨b, hnb, Nat.lt_succ_of_lt hbm, hbegins⟩
    | _ => cases horigin

/-- Whoever runs a call alone in the end ran it alone before. -/
theorem unbegun_of_sole (hnm : n ≤ m) (hsole : (run.world m).machine.Sole (.call id) i)
    (hentry : (run.world n).machine.tasks[i]? = some (.executing id .entry)) :
    run.Unbegun id n := by
  intro stage hmem
  obtain ⟨j, htask⟩ := List.mem_iff_getElem?.mp hmem
  obtain ⟨task, hlater, horigin⟩ := task_later hnm htask
  have hruns : task.runs (.call id) = true := by
    rw [← Task.runs_origin, horigin]
    simp [Task.origin, Task.runs]
  obtain rfl := hsole.alone j task hlater hruns
  cases htask.symm.trans hentry
  rfl

/-- A call keeps what it asks for and how the response is read. -/
theorem call_later {call : Call} (hnm : n ≤ m)
    (hcall : (run.world n).machine.calls[id]? = some call) :
    ∃ call', (run.world m).machine.calls[id]? = some call' ∧ call'.request = call.request ∧
      call'.decoder = call.decoder := by
  refine run.later hnm (motive := fun world => ∃ call', world.machine.calls[id]? = some call' ∧
    call'.request = call.request ∧ call'.decoder = call.decoder) ⟨call, hcall, rfl, rfl⟩ ?_
  rintro world next label - ⟨before, hbefore, hrequest, hdecoder⟩ htaken
  obtain ⟨events, hstep, -⟩ := World.step_ok htaken
  obtain ⟨after, hafter, hkeeps⟩ := hstep.calls_kept hbefore
  exact ⟨after, hafter, hkeeps.request_eq.trans hrequest, hkeeps.decoder_eq.trans hdecoder⟩

/-- **What the only execution of a call comes to** is what a call comes to that is executed once. -/
theorem callYields {call : Call} {result : Except Error Datum} (hnm : n ≤ m)
    (hcall : (run.world n).machine.calls[id]? = some call)
    (hentry : (run.world n).machine.tasks[i]? = some (.executing id .entry))
    (hsole : (run.world m).machine.Sole (.call id) i)
    (houtcome : (run.world m).machine.tasks[i]?.bind CallFuture.outcome? = some result) :
    run.CallYields i id n m call result := by
  obtain ⟨task, htask, horigin⟩ := task_later hnm hentry
  rw [htask, Option.bind_some] at houtcome
  cases task with
  | executing other stage =>
    cases horigin
    have hbegun : stage ≠ .entry := by
      rintro rfl
      cases houtcome
    obtain ⟨b, hnb, hbm, hbegins⟩ := begins_between hnm hentry htask hbegun
    have hfirst := unbegun_of_sole (Nat.le_of_lt hbm) hsole hbegins.entry
    obtain ⟨k, rfl⟩ := Nat.exists_eq_add_of_le (Nat.le_of_lt hbm)
    obtain ⟨call', hcall', htells⟩ := hbegins.tells hfirst htask
    cases stage with
    | finished result' =>
      cases houtcome
      obtain ⟨call'', hcall'', hrequest, hdecoder⟩ := call_later hnm hcall
      cases hcall'.symm.trans hcall''
      exact .returned hnb hbegins hfirst rfl hcall' hrequest hdecoder htells
    | abandoned =>
      cases houtcome
      obtain ⟨operation, hpanics⟩ := htells
      exact .panicked hnb hbegins hfirst rfl hpanics
    | _ => cases houtcome
  | _ => cases horigin

/-- **An execution that gets its turns comes to an end.** -/
theorem FairTo.outcome (hfair : run.FairTo i)
    (hentry : (run.world n).machine.tasks[i]? = some (.executing id .entry)) :
    ∃ m₀, ∀ m, m₀ ≤ m →
      ((run.world m).machine.tasks[i]?.bind CallFuture.outcome?).isSome = true := by
  obtain ⟨m₀, stage, -, htask, hover⟩ := hfair.over hentry
  refine ⟨m₀, fun m hm => ?_⟩
  rw [(over_stays hm htask hover).1, Option.bind_some]
  cases stage with
  | finished | abandoned => rfl
  | _ => cases hover

/-! ## 2. Batches -/

variable {batch : Batch} {collector : Collector} {workers : List WorkerStage}

/-- What the leader of batch `id` has come to at moment `m`. -/
inductive BatchYields (run : Run config) (id m : Nat) (items : List BatchItem) : BatchEnd → Prop
  | told {deliveries : List Delivery} {result : BatchEnd}
    (told : (run.world m).log.callbacks id = callbacksOf deliveries (some result))
    (accounts : Accounts (keysOf items) deliveries (some result)) :
    BatchYields run id m items result
  | panicked (panics : .abandoned ∈ (run.world m).machine.workers id) :
    BatchYields run id m items (.failure (.transport .batchWithoutResult) [])

/-- Whoever collects a batch alone leads it. -/
theorem Led.task_eq (h : run.Led id n batch collector workers)
    (hsole : (run.world n).machine.Sole (.batch id) i) :
    (run.world n).machine.tasks[i]? = some (.collecting id collector) := by
  obtain ⟨batch', -, hteam⟩ := Option.map_eq_some_iff.mp h.team_eq
  have hmem : collector ∈ (run.world n).machine.leads id := by
    rw [(Team.mk.inj hteam).2.1]
    exact List.mem_singleton_self _
  obtain ⟨task, htask, hlead⟩ := List.mem_filterMap.mp hmem
  obtain rfl := Task.eq_collecting hlead
  obtain ⟨j, hj⟩ := List.mem_iff_getElem?.mp htask
  obtain rfl := hsole.alone j _ hj (by simp [Task.runs])
  exact hj

/-- A leader that is over has an outcome for its future. -/
theorem Led.outcome (h : run.Led id n batch collector workers)
    (hsole : (run.world n).machine.Sole (.batch id) i) (hover : collector.isOver = true) :
    ((run.world n).machine.tasks[i]?.bind BatchFuture.outcome?).isSome = true := by
  rw [h.task_eq hsole, Option.bind_some]
  obtain ⟨stage, completed, errors⟩ := collector
  cases stage with
  | finished result => cases result <;> rfl
  | abandoned => rfl
  | _ => cases hover

/-- **What the leader of a batch comes to** accounts for every item. -/
theorem Led.yields {result : BatchEnd} (h : run.Led id n batch collector workers)
    (hsole : (run.world n).machine.Sole (.batch id) i)
    (houtcome : (run.world n).machine.tasks[i]?.bind BatchFuture.outcome? = some result) :
    run.BatchYields id n batch.items result := by
  rw [h.task_eq hsole, Option.bind_some] at houtcome
  obtain ⟨hleads, hledger, hcallbacks⟩ := h.ledger
  obtain ⟨hbalanced, horderly⟩ := h.inOrder
  have haccounts := hledger.accounts hbalanced.keys_nodup
  obtain ⟨stage, completed, errors⟩ := collector
  cases stage with
  | finished result' =>
    cases result' with
    | ok result' =>
      cases houtcome
      exact .told hcallbacks haccounts
    | error error => cases hleads
  | abandoned =>
    cases houtcome
    refine .panicked ?_
    rw [h.workers_eq]
    exact (horderly _ (List.mem_singleton_self _)).stricken rfl
  | _ => cases houtcome

/-- The leader of a batch that was cancelled before it was launched comes to nothing else than that
the batch was cancelled. -/
theorem Led.forestalled_outcome {result : BatchEnd} (h : run.Led id n batch collector workers)
    (hidle : Forestalled batch collector workers)
    (hsole : (run.world n).machine.Sole (.batch id) i)
    (houtcome : (run.world n).machine.tasks[i]?.bind BatchFuture.outcome? = some result) :
    result = .failure .cancelled [] := by
  rw [h.task_eq hsole, Option.bind_some] at houtcome
  have hstage := hidle.leader_idle
  obtain ⟨stage, completed, errors⟩ := collector
  cases stage with
  | finished result' =>
    obtain rfl : result' = .ok (.failure .cancelled []) := hstage
    exact (Option.some.inj houtcome).symm
  | abandoned => exact hstage.elim
  | _ => cases houtcome

/-- Nobody who works for such a batch asks the endpoint for anything. -/
theorem Led.forestalled_silent {j : TaskId} {task : Task}
    (h : run.Led id n batch collector workers) (hidle : Forestalled batch collector workers)
    (htask : (run.world n).machine.tasks[j]? = some task) (huser : task.user = .batch id) :
    (run.world n).machine.operation? j = none := by
  cases task with
  | executing | cancelling => cases huser
  | collecting | stopping => simp [Machine.operation?, htask]
  | working other stage =>
    cases huser
    have hmem : stage ∈ (run.world n).machine.workers id := by
      rw [Machine.workers_eq]
      exact List.mem_filterMap.mpr ⟨_, List.mem_of_getElem? htask, Task.worker?_self⟩
    rw [h.workers_eq] at hmem
    rcases hidle.workers_idle stage hmem with rfl | rfl <;>
      simp [Machine.operation?, htask, WorkerStage.operation?]

end Run

end RemoteCall.Client
