/-
# A batch that is cancelled before it is launched

The leader of a batch does not look at the flag before it hires: a batch that was cancelled before
it is launched has workers all the same.  Each of them looks at the flag before it asks for a
connection, and leaves; so nothing is asked of the endpoint, nothing is reported, and the leader
finds that the batch was cancelled when it closes it.  `Run.Led.forestalled` follows the batch so
from launch to end.
-/
import RemoteCall.Proofs.Client.Afterwards
import RemoteCall.Proofs.Client.Batch.Course

namespace RemoteCall.Client

/-- Where the leader of such a batch may stand. -/
def CollectorStage.IsIdle : CollectorStage → Prop
  | launching | listening => True
  | joining failure | joined failure => failure = none
  | concluding failure => failure = some .cancelled
  | finished result => result = .ok (.failure .cancelled [])
  | _ => False

/-- The batch is cancelled, and nobody has done anything for it. -/
structure Forestalled (batch : Batch) (collector : Collector) (workers : List WorkerStage) :
    Prop where
  cancelled : batch.cancelled = true
  channel_eq : batch.channel = []
  workers_idle : ∀ worker ∈ workers, worker = .acquiring ∨ worker = .finished
  leader_idle : collector.stage.IsIdle

section

variable {id limit depth timeoutMs : Nat} {batch batch' : Batch} {collector collector' : Collector}
  {workers workers' : List WorkerStage} {events : Log}

/-- A worker of a cancelled batch that has no connection yet leaves. -/
theorem WorkerMove.of_forestalled {pool pool' : Pool} {stage stage' : WorkerStage}
    (h : WorkerMove id depth timeoutMs pool batch stage pool' batch' stage' events)
    (hcancelled : batch.cancelled = true) (hidle : stage = .acquiring ∨ stage = .finished) :
    stage' = .finished ∧ batch'.channel = batch.channel := by
  have hstopping : batch.isStopping = true := by rw [Batch.isStopping, hcancelled, Bool.true_or]
  obtain rfl : stage = .acquiring := hidle.resolve_right fun hover => by
    subst hover
    exact absurd h.not_over (by simp [WorkerStage.isOver])
  cases h with
  | gaveUp | timedOut => exact ⟨rfl, rfl⟩
  | reused hgoing | reserved hgoing => exact absurd (hstopping.symm.trans hgoing) (by simp)
  | panicked hholding => cases hholding

/-- The leader of a cancelled batch whose workers do nothing closes it. -/
theorem CollectorMove.of_forestalled {hired : Nat}
    (h : CollectorMove id limit (Crew.of workers) batch collector batch' collector' hired events)
    (hidle : Forestalled batch collector workers) (hcompleted : collector.completed = []) :
    collector'.stage.IsIdle ∧ batch'.channel = batch.channel ∧ Log.told events id = [] := by
  obtain ⟨hcancelled, hchannel, hworkers, hstage⟩ := hidle
  cases h with
  | launched => exact ⟨trivial, rfl, rfl⟩
  | ranDry => exact ⟨rfl, rfl, rfl⟩
  | took hfound => cases hchannel.symm.trans hfound
  | joined => exact ⟨hstage, rfl, rfl⟩
  | abandoned hpanicked =>
    rcases hworkers _ (Crew.abandoned_mem hpanicked) with heq | heq <;> cases heq
  | judged =>
    refine ⟨?_, rfl, rfl⟩
    simp only [CollectorStage.IsIdle] at hstage ⊢
    simp [hstage, hcancelled]
  | concluded hconcluding hended =>
    rw [hconcluding] at hstage
    cases hstage
    refine ⟨?_, rfl, by simp [Log.told, Log.callbacks, Callback.delivery?]⟩
    simp [CollectorStage.IsIdle, hended, Collector.batchEnd, hcompleted]
  | _ => exact hstage.elim

/-- **A turn does not wake such a batch.** -/
theorem Turn.forestalled
    (h : Turn id limit depth timeoutMs batch collector workers batch' collector' workers' events)
    (hidle : Forestalled batch collector workers) (hcompleted : collector.completed = []) :
    Forestalled batch' collector' workers' ∧ Log.told events id = [] := by
  cases h with
  | rest huntold => exact ⟨hidle, Log.told_of_callbacks huntold⟩
  | launch _ hlistening huntold =>
    refine ⟨⟨hidle.cancelled, hidle.channel_eq, fun worker hmem => ?_, ?_⟩,
      Log.told_of_callbacks huntold⟩
    · exact .inl (List.eq_of_mem_replicate hmem)
    · rw [hlistening]
      trivial
  | lead _ hmove =>
    obtain ⟨hleader, hchannel, htold⟩ := hmove.of_forestalled hidle hcompleted
    exact ⟨⟨hmove.cancelled_eq.trans hidle.cancelled, hchannel.trans hidle.channel_eq,
      hidle.workers_idle, hleader⟩, htold⟩
  | work hmove =>
    have hmember := hidle.workers_idle _ (List.mem_append_right _ (List.mem_cons_self ..))
    obtain ⟨rfl, hchannel⟩ := hmove.of_forestalled hidle.cancelled hmember
    refine ⟨⟨hmove.cancelled_eq.trans hidle.cancelled, hchannel.trans hidle.channel_eq,
      fun worker hmem => ?_, hidle.leader_idle⟩, Log.told_of_callbacks hmove.callbacks_eq⟩
    rcases mem_around.mp hmem with hold | rfl
    · exact hidle.workers_idle worker (mem_around.mpr (.inl hold))
    · exact .inr rfl
  | stop hmove =>
    refine ⟨⟨?_, hmove.batch_frame.2.2.2.trans hidle.channel_eq, hidle.workers_idle,
      hidle.leader_idle⟩, Log.told_of_callbacks hmove.callbacks_eq⟩
    rw [hmove.cancelled_eq, hidle.cancelled, Bool.true_or]

end

namespace Run

variable {config : Config} {run : Run config} {id n m : Nat} {batch : Batch}
  {collector : Collector} {workers : List WorkerStage}

/-- **Nothing is ever done for a batch that is cancelled before it is launched.** -/
theorem Led.forestalled (h : run.Led id n batch collector workers)
    (hstage : collector.stage = .launching) (hcancelled : batch.cancelled = true) (hnm : n ≤ m) :
    ∃ batch' collector' workers', run.Led id m batch' collector' workers' ∧
      Forestalled batch' collector' workers' := by
  have huntouched := h.launching hstage
  have hnow : Forestalled batch collector workers ∧ (run.world n).log.told id = [] := by
    refine ⟨⟨hcancelled, huntouched.channel_eq, ?_, ?_⟩, huntouched.told_eq⟩
    · simp [huntouched.workers_eq]
    · rw [hstage]
      trivial
  obtain ⟨batch', collector', workers', hled, hidle, -⟩ := h.forward
    (P := fun m batch collector workers =>
      Forestalled batch collector workers ∧ (run.world m).log.told id = []) hnow
    (fun hled _ hlog hturn hP => by
      obtain ⟨hidle, htold⟩ := hP
      have hcompleted := hled.ledger.2.1.completed_eq
      rw [htold, List.filterMap_nil] at hcompleted
      obtain ⟨hidle', htold'⟩ := hturn.forestalled hidle hcompleted
      exact ⟨hidle', by rw [(log_next id hlog).2, htold, htold', List.append_nil]⟩) hnm
  exact ⟨_, _, _, hled, hidle⟩

end Run

end RemoteCall.Client
