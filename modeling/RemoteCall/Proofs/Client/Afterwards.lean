/-
# Cancelling what has finished

A call whose execution has returned, and a batch whose end has been told, can still be cancelled,
any number of times.  `Run.cancels_in_vain` compares a run in which that happens with the run in
which it does not, step by step: each step of such a cancellation leaves the pool, the connections,
the calls, the batches and everything that is logged as they were, and everybody else goes the same
way in both runs, clones and futures included.

A call does not even look cancelled, for a cancellation that comes too late has lost.  A batch does:
a cancellation raises the flag of the batch without looking whether the batch has finished.  A future
of the batch that is polled for the first time after that passes the flag on to the batch that it
starts, and ends with a cancellation that nobody has asked it for.
-/
import RemoteCall.Proofs.Client.Life.Cycle
import RemoteCall.Proofs.Client.Rewinding

namespace RemoteCall.Client

/-! ## 1. Who looks cancelled -/

/-- Whether a task is about to raise the flag of a batch. -/
def Task.raises (id : Nat) : Task → Bool
  | .stopping other .entry => other == id
  | _ => false

section

variable {machine machine' : Machine} {mover? : Option Task} {log events : Log} {id : Nat}
  {batch batch' : Batch}

theorem Task.raises_iff :
    mover?.any (Task.raises id) = true ↔ mover? = some (.stopping id .entry) := by
  cases mover? with
  | none => simp
  | some mover =>
    cases mover with
    | stopping other stage => cases stage <;> simp [Task.raises]
    | _ => simp [Task.raises]

theorem Task.raises_eq_false (h : mover?.any (Task.callsOff (.batch id)) = false) :
    mover?.any (Task.raises id) = false := by
  cases mover? with
  | none => rfl
  | some mover =>
    cases mover with
    | stopping other stage =>
      have hother : other ≠ id := fun heq => by simp [Task.callsOff, heq] at h
      cases stage <;> simp [Task.raises, hother]
    | _ => rfl

theorem WorkerMove.cancelled_eq {other depth timeoutMs : Nat} {pool pool' : Pool}
    {stage stage' : WorkerStage}
    (h : WorkerMove other depth timeoutMs pool batch stage pool' batch' stage' events) :
    batch'.cancelled = batch.cancelled := by
  cases h <;> rfl

theorem CollectorMove.cancelled_eq {other limit hired : Nat} {crew : Crew}
    {collector collector' : Collector}
    (h : CollectorMove other limit crew batch collector batch' collector' hired events) :
    batch'.cancelled = batch.cancelled := by
  cases h <;> rfl

theorem StopMove.cancelled_eq {stage stage' : StopStage}
    (h : StopMove batch stage batch' stage' events) :
    batch'.cancelled = (batch.cancelled || stage == .entry) := by
  cases h with
  | flagged => exact (Bool.or_true _).symm
  | swept | fired => exact (Bool.or_false _).symm

theorem any_cancelled_set {batches : List Batch} {other : Nat}
    (hfound : batches[other]? = some batch) (heq : batch'.cancelled = batch.cancelled) :
    (batches.set other batch')[id]?.any Batch.cancelled = batches[id]?.any Batch.cancelled := by
  by_cases hself : other = id
  · subst hself
    rw [List.getElem?_set_self (List.getElem?_eq_some_iff.mp hfound).1, hfound]
    exact heq
  · rw [List.getElem?_set_ne hself]

/-- **A batch looks cancelled from the first step of a cancellation on**, and nothing else makes it
look so. -/
theorem Step.looksCancelled_batch (h : Step machine mover? machine' events)
    (hid : id < machine.batches.length) : machine'.looksCancelled (.batch id) =
      (machine.looksCancelled (.batch id) || mover?.any (Task.raises id)) := by
  simp only [Machine.looksCancelled]
  cases h with
  | newCall | spawn => exact (Bool.or_false _).symm
  | newBatch | poll =>
    rw [List.getElem?_append_left hid]
    exact (Bool.or_false _).symm
  | addItem hfound | enqueue hfound =>
    refine (any_cancelled_set hfound ?_).trans (Bool.or_false _).symm
    rfl
  | executing | cancelling => exact (Bool.or_false _).symm
  | collecting htasks hfound hmove =>
    exact (any_cancelled_set hfound hmove.cancelled_eq).trans (Bool.or_false _).symm
  | working htasks hfound hmove =>
    exact (any_cancelled_set hfound hmove.cancelled_eq).trans (Bool.or_false _).symm
  | @stopping before after other stage stage' batch batch' events htasks hfound hmove =>
    by_cases hself : other = id
    · subst hself
      rw [List.getElem?_set_self hid, hfound]
      have hraises : (Task.stopping other stage).raises other = (stage == .entry) := by
        cases stage <;> simp [Task.raises]
      rw [Option.any_some, Option.any_some, Option.any_some, hraises, hmove.cancelled_eq]
    · have hraises : (Task.stopping other stage).raises id = false := by
        cases stage <;> simp [Task.raises, hself]
      rw [List.getElem?_set_ne hself, Option.any_some, hraises, Bool.or_false]

/-- The cancellations of a batch that there are after a step were there before, are new, or have
taken the step. -/
theorem Step.stops (h : Step machine mover? machine' events) {stage' : StopStage}
    (hmem : .stopping id stage' ∈ machine'.tasks) :
    .stopping id stage' ∈ machine.tasks ∨ stage' = .entry ∨
      ∃ stage batch batch', mover? = some (.stopping id stage) ∧
        .stopping id stage ∈ machine.tasks ∧ machine.batches[id]? = some batch ∧
        StopMove batch stage batch' stage' events := by
  cases h with
  | newCall | newBatch | addItem => exact .inl hmem
  | spawn hfresh =>
    rcases List.mem_append.mp hmem with hmem | hself
    · exact .inl hmem
    · cases List.mem_singleton.mp hself
      cases hfresh
      exact .inr (.inl rfl)
  | enqueue | poll =>
    rcases List.mem_append.mp hmem with hmem | hself
    · exact .inl hmem
    · cases List.mem_singleton.mp hself
  | executing htasks | cancelling htasks | working htasks =>
    rcases mem_around.mp hmem with hmem | hself
    · exact .inl (htasks ▸ mem_around.mpr (.inl hmem))
    · cases hself
  | collecting htasks =>
    have hmem := (List.mem_append.mp hmem).resolve_right (by simp)
    rcases mem_around.mp hmem with hmem | hself
    · exact .inl (htasks ▸ mem_around.mpr (.inl hmem))
    · cases hself
  | stopping htasks hfound hmove =>
    rcases mem_around.mp hmem with hmem | hself
    · exact .inl (htasks ▸ mem_around.mpr (.inl hmem))
    · cases hself
      exact .inr (.inr ⟨_, _, _, rfl, htasks ▸ mem_around.mpr (.inr rfl), hfound, hmove⟩)

end

/-- **A cancellation that has begun shows**: its batch looks cancelled. -/
theorem World.Reachable.looksCancelled_of_begun {config : Config} {world : World}
    (h : Reachable config world) {id : Nat} {stage : StopStage}
    (hmem : .stopping id stage ∈ world.machine.tasks) (hbegun : stage ≠ .entry) :
    world.machine.looksCancelled (.batch id) = true := by
  induction h generalizing stage with
  | new => exact absurd hmem List.not_mem_nil
  | @step world next label hbefore htaken ih =>
    obtain ⟨events, hstep, -⟩ := World.step_ok htaken
    have htidy := (hbefore.holds Team.InOrder.lasting).tidy
    rcases hstep.stops hmem with hold | rfl | ⟨before, _, _, hmover, hold, -, -⟩
    · rw [hstep.looksCancelled_batch (htidy _ hold), ih hold hbegun]
      rfl
    · exact absurd rfl hbegun
    · rw [hstep.looksCancelled_batch (htidy _ hold), hmover, Option.any_some]
      by_cases hentry : before = .entry
      · subst hentry
        simp [Task.raises]
      · rw [ih hold hentry, Bool.true_or]

/-! ## 2. What has finished -/

/-- A call is completed; or the end of a batch has been told, and no cancellation of the batch is
about to abort anything. -/
def World.Over (world : World) : User → Prop
  | .call id => ∃ call, world.machine.calls[id]? = some call ∧ call.phase = .completed
  | .batch id => (∃ result, .terminal result ∈ world.log.callbacks id) ∧
      ∀ stage, .stopping id stage ∈ world.machine.tasks → (Task.stopping id stage).firing = []

section

variable {config : Config} {world next : World} {label : Label} {user : User}

theorem World.Over.rests (hover : world.Over user) (h : Reachable config world) (id : Nat)
    (huser : user = .batch id) : world.machine.Rests id := by
  subst huser
  obtain ⟨⟨result, htold⟩, -⟩ := hover
  exact h.rests htold

/-- What is over stays so. -/
theorem World.Over.step (hover : world.Over user) (h : Reachable config world)
    (htaken : world.step label = some next) : next.Over user := by
  obtain ⟨events, hstep, hlog⟩ := World.step_ok htaken
  cases user with
  | call id =>
    obtain ⟨call, hcall, hcompleted⟩ := hover
    obtain ⟨call', hcall', hkept | ⟨hpending, -⟩⟩ := hstep.phase_cases hcall
    · exact ⟨call', hcall', hkept.trans hcompleted⟩
    · cases hcompleted.symm.trans hpending
  | batch id =>
    obtain ⟨batch, hfound, -, haborts⟩ := (hover.rests h id rfl).found
    obtain ⟨⟨result, htold⟩, hharmless⟩ := hover
    refine ⟨⟨result, ?_⟩, fun stage' hmem => ?_⟩
    · rw [hlog, Log.callbacks_append]
      exact List.mem_append_left _ htold
    · rcases hstep.stops hmem with hold | rfl | ⟨stage, other, _, -, hold, hother, hmove⟩
      · exact hharmless stage' hold
      · rfl
      · cases hfound.symm.trans hother
        cases hmove with
        | flagged => rfl
        | swept =>
          show batch.registered = []
          rw [Batch.registered, haborts]
          rfl
        | fired => cases hharmless _ hold

/-- A cancellation of a completed call loses. -/
theorem CancelMove.of_completed {call call' : Call} {stage stage' : CancelStage} {events : Log}
    (h : CancelMove call stage call' stage' events) (hcompleted : call.phase = .completed)
    (hunclaimed : stage ≠ .claimed) : call' = call ∧ events = [] := by
  cases h with
  | won hpending => cases hcompleted.symm.trans hpending
  | lost => exact ⟨rfl, rfl⟩
  | fired | spared => exact absurd rfl hunclaimed

/-- A cancellation of a batch for which nothing is registered raises the flag, and that is all. -/
theorem StopMove.of_cleared {id : Nat} {batch batch' : Batch} {stage stage' : StopStage}
    {events : Log} (h : StopMove batch stage batch' stage' events) (haborts : batch.aborts = [])
    (hharmless : (Task.stopping id stage).firing = []) :
    batch'.rewind (.batch id) id = batch.rewind (.batch id) id ∧ events = [] := by
  cases h with
  | flagged => exact ⟨by simp [Batch.rewind], rfl⟩
  | swept =>
    have hsweep : batch.sweep = batch := by
      cases batch
      cases haborts
      rfl
    exact ⟨congrArg _ hsweep, rfl⟩
  | fired => cases hharmless

/-- **A cancellation of what is over does nothing** but take its own steps and raise the flag of the
batch. -/
theorem World.Over.rewind_eq (hover : world.Over user) (h : Reachable config world)
    (htaken : world.step label = some next)
    (hmover : (label.task?.bind (world.machine.tasks[·]?)).any (Task.callsOff user) = true) :
    next.rewind user = world.rewind user := by
  obtain ⟨events, hstep, hlog⟩ := World.step_ok htaken
  obtain ⟨machine', log'⟩ := next
  obtain rfl : log' = world.log ++ events := hlog
  generalize label.task?.bind (world.machine.tasks[·]?) = mover? at hstep hmover
  cases hstep with
  | @cancelling before after id stage stage' call call' events htasks hfound hmove =>
    obtain rfl : user = .call id := by simpa [Task.callsOff] using hmover
    obtain ⟨other, hother, hcompleted⟩ := hover
    cases hfound.symm.trans hother
    have hunclaimed : stage ≠ .claimed := by
      rintro rfl
      obtain ⟨hother, hcancelled⟩ := h.exposure.won id (htasks ▸ mem_around.mpr (.inr rfl))
      cases hfound.symm.trans hother
      simp [Call.isCancelled, hcompleted] at hcancelled
    obtain ⟨rfl, rfl⟩ := hmove.of_completed hcompleted hunclaimed
    obtain ⟨hid, rfl⟩ := List.getElem?_eq_some_iff.mp hfound
    simp [World.rewind, Machine.rewind, htasks, Task.rewind]
  | @stopping before after id stage stage' batch batch' events htasks hfound hmove =>
    obtain rfl : user = .batch id := by simpa [Task.callsOff] using hmover
    obtain ⟨other, hother, -, haborts⟩ := (hover.rests h id rfl).found
    cases hfound.symm.trans hother
    have hharmless := hover.2 stage (htasks ▸ mem_around.mpr (.inr rfl))
    obtain ⟨hrewind, rfl⟩ := hmove.of_cleared haborts hharmless
    simp [World.rewind, Machine.rewind, htasks, Task.rewind, mapIdx_rewind_set_eq hfound hrewind]
  | _ => cases hmover

end

/-! ## 3. The run without the cancellations -/

namespace Run

variable {config : Config} (run : Run config) (user : User) (n : Nat)

/-- What happens at moment `k` if the cancellations of the user do not move from moment `n` on. -/
def sparedLabel? (k : Nat) (world : World) : Option Label :=
  (run.label? k).filter fun label =>
    !(decide (n ≤ k) && (run.mover? k).any (Task.callsOff user)) && (world.step label).isSome

/-- The worlds if the cancellations of the user do not move from moment `n` on. -/
def sparedWorld : Nat → World
  | 0 => .new config
  | k + 1 =>
    let world := sparedWorld k
    ((run.sparedLabel? user n k world).bind world.step).getD world

/-- The run in which the cancellations of the user do not move from moment `n` on. -/
def sparing : Run config where
  world := run.sparedWorld user n
  label? k := run.sparedLabel? user n k (run.sparedWorld user n k)
  starts := rfl
  goes k := by
    cases hlabel : run.sparedLabel? user n k (run.sparedWorld user n k) with
    | none => simp [sparedWorld, hlabel]
    | some label =>
      have hpossible := (Option.filter_eq_some_iff.mp hlabel).2
      obtain ⟨next, hnext⟩ := Option.isSome_iff_exists.mp (Bool.and_eq_true_iff.mp hpossible).2
      simp [sparedWorld, hlabel, hnext]

/-- A future of the user that is polled for the first time from moment `n` on and before moment `m`
finds that the user does not look cancelled. -/
def UnflaggedPolls (m : Nat) : Prop :=
  ∀ k, n ≤ k → k < m → ∀ id, user = .batch id → run.label? k = some (.order (.poll id)) →
    (run.world k).machine.looksCancelled user = false

/-- Up to moment `m` another run goes the way of this one, except that the cancellations of the user
do not move from moment `n` on; and nothing but those cancellations and their flag is different. -/
structure Spares (spared : Run config) (m : Nat) : Prop where
  before : ∀ k ≤ n, spared.world k = run.world k
  labels : ∀ k < m, spared.label? k =
    if n ≤ k ∧ (run.mover? k).any (Task.callsOff user) = true then none else run.label? k
  worlds : ∀ k ≤ m, (spared.world k).rewind user = (run.world k).rewind user
  callFutures : ∀ k ≤ m, ∀ future : CallFuture,
    rewindPoll user (future.poll (spared.world k).machine) =
      rewindPoll user (future.poll (run.world k).machine)
  /-- A future of the batch that has not been polled yet looks for the flag. -/
  batchFutures : ∀ k ≤ m, ∀ future : BatchFuture,
    (user = .batch future.batch → future.running = none → future.finished = false →
      (run.world k).machine.looksCancelled user = false) →
    rewindPoll user (future.poll (spared.world k).machine) =
      rewindPoll user (future.poll (run.world k).machine)

variable {run user n} {m k : Nat} {label : Label}

theorem rests (h : run.label? k = none) : run.world (k + 1) = run.world k := by
  have hgoes := run.goes k
  rwa [h] at hgoes

theorem takes {next : World} (h : run.label? k = some label)
    (hnext : (run.world k).step label = some next) : run.world (k + 1) = next := by
  have hgoes := run.goes k
  rw [h] at hgoes
  exact Option.some_inj.mp (hgoes.symm.trans hnext)

/-- Whoever rests goes on resting, and so do the cancellations of the user. -/
theorem sparing_label_eq_none
    (h : run.label? k = none ∨ n ≤ k ∧ (run.mover? k).any (Task.callsOff user) = true) :
    (run.sparing user n).label? k = none := by
  show run.sparedLabel? user n k _ = none
  rcases h with hlabel | ⟨hnk, hcallsOff⟩
  · rw [sparedLabel?, hlabel]
    rfl
  · rw [sparedLabel?, hcallsOff, decide_eq_true hnk]
    exact Option.filter_eq_none_iff.mpr fun _ _ => nofun

/-- Any other step is taken if it is possible. -/
theorem sparing_label_eq_some {next : World} (hlabel : run.label? k = some label)
    (hother : n ≤ k → (run.mover? k).any (Task.callsOff user) = false)
    (hnext : ((run.sparing user n).world k).step label = some next) :
    (run.sparing user n).label? k = some label := by
  have hspares : (decide (n ≤ k) && (run.mover? k).any (Task.callsOff user)) = false := by
    by_cases hnk : n ≤ k
    · rw [hother hnk, Bool.and_false]
    · rw [decide_eq_false hnk, Bool.false_and]
  show run.sparedLabel? user n k ((run.sparing user n).world k) = some label
  rw [sparedLabel?, hlabel]
  refine Option.filter_eq_some_iff.mpr ⟨rfl, ?_⟩
  rw [hspares, hnext]
  rfl

/-- Before moment `n` the two runs are the same. -/
theorem sparing_before (hkn : k ≤ n) : (run.sparing user n).world k = run.world k := by
  induction k with
  | zero => exact run.starts.symm
  | succ k ih =>
    have hsame := ih (Nat.le_of_succ_le hkn)
    rcases run.next k with ⟨hrests, hnext⟩ | ⟨label, hlabel, htaken⟩
    · rw [rests (sparing_label_eq_none (.inl hrests)), hsame, hnext]
    · rw [← hsame] at htaken
      have hearly : n ≤ k → (run.mover? k).any (Task.callsOff user) = false :=
        fun hnk => absurd hnk (Nat.not_le.mpr hkn)
      exact takes (sparing_label_eq_some hlabel hearly htaken) htaken

theorem sparing_label_before (hkn : k < n) :
    (run.sparing user n).label? k = run.label? k := by
  rcases run.next k with ⟨hrests, -⟩ | ⟨label, hlabel, htaken⟩
  · rw [sparing_label_eq_none (.inl hrests), hrests]
  · rw [← sparing_before (Nat.le_of_lt hkn)] at htaken
    rw [sparing_label_eq_some hlabel (fun hnk => absurd hnk (Nat.not_le.mpr hkn)) htaken, hlabel]

/-- What holds of the two runs at a moment from `n` on. -/
structure Alike (run : Run config) (user : User) (n k : Nat) : Prop where
  rewind_eq : ((run.sparing user n).world k).rewind user = (run.world k).rewind user
  unflagged : ∀ id, user = .batch id →
    ((run.sparing user n).world k).machine.looksCancelled user = false

/-- Whether a cancellation of the user moves is the same in both runs. -/
theorem Alike.callsOff_eq (h : run.Alike user n k) (label : Label) :
    (label.task?.bind (((run.sparing user n).world k).machine.tasks[·]?)).any (Task.callsOff user) =
      (label.task?.bind ((run.world k).machine.tasks[·]?)).any (Task.callsOff user) := by
  have htasks := congrArg (·.machine.tasks) h.rewind_eq
  cases label.task? with
  | none => rfl
  | some i =>
    have hi := congrArg (·[i]?) htasks
    simp only [World.rewind, Machine.tasks_rewind, List.getElem?_map] at hi
    have hany := congrArg (Option.any (Task.callsOff user)) hi
    simpa [Option.any_map] using hany

/-- While the other run rests, and this one rests or takes a step of a cancellation, they stay
alike. -/
theorem Alike.rests (h : run.Alike user n k) (hlabel : (run.sparing user n).label? k = none)
    (hsame : (run.world (k + 1)).rewind user = (run.world k).rewind user) :
    run.Alike user n (k + 1) := by
  constructor
  · rw [Run.rests hlabel, h.rewind_eq, hsame]
  · rw [Run.rests hlabel]
    exact h.unflagged

/-- Anybody else's step is possible in the other run too, and comes to the same. -/
theorem Alike.step (h : run.Alike user n k) (hover : (run.world k).Over user)
    (hspared : ((run.sparing user n).world k).Over user)
    (htaken : (run.world k).step label = some (run.world (k + 1)))
    (hother : (label.task?.bind ((run.world k).machine.tasks[·]?)).any (Task.callsOff user) = false)
    (hpoll : ∀ id, user = .batch id → label = .order (.poll id) →
      (run.world k).machine.looksCancelled user = false) :
    ∃ next, ((run.sparing user n).world k).step label = some next ∧
      next.rewind user = (run.world (k + 1)).rewind user := by
  have hother' := hother
  rw [← h.callsOff_eq] at hother'
  -- both are the step of the world without the cancellations
  have hsteps := calc (((run.sparing user n).world k).step label).map (World.rewind user)
    _ = (((run.sparing user n).world k).rewind user).step label :=
      (World.step_rewind (hspared.rests ((run.sparing user n).reachable k)) hother'
        fun id huser _ => h.unflagged id huser).symm
    _ = ((run.world k).rewind user).step label := by rw [h.rewind_eq]
    _ = ((run.world k).step label).map (World.rewind user) :=
      World.step_rewind (hover.rests (run.reachable k)) hother hpoll
  rw [htaken, Option.map_some] at hsteps
  exact Option.map_eq_some_iff.mp hsteps

/-- **The two runs stay alike**: they take the same step, or one of them takes a step of a
cancellation of the user and the other rests. -/
theorem Alike.next (h : run.Alike user n k) (hnk : n ≤ k) (hover : (run.world k).Over user)
    (hspared : ((run.sparing user n).world k).Over user)
    (hpoll : ∀ id, user = .batch id → run.label? k = some (.order (.poll id)) →
      (run.world k).machine.looksCancelled user = false) :
    run.Alike user n (k + 1) ∧ (run.sparing user n).label? k =
      if (run.mover? k).any (Task.callsOff user) = true then none else run.label? k := by
  rcases run.next k with ⟨hlabel, hsame⟩ | ⟨label, hlabel, htaken⟩
  · have hnone : (run.sparing user n).label? k = none := sparing_label_eq_none (.inl hlabel)
    refine ⟨h.rests hnone (congrArg _ hsame), ?_⟩
    rw [hlabel, ite_self, hnone]
  have hmover : run.mover? k = label.task?.bind ((run.world k).machine.tasks[·]?) := by
    rw [Run.mover?, place?, hlabel, Option.bind_some]
  cases hcallsOff : (run.mover? k).any (Task.callsOff user) with
  | true =>
    have hnone : (run.sparing user n).label? k = none :=
      sparing_label_eq_none (.inr ⟨hnk, hcallsOff⟩)
    refine ⟨h.rests hnone ?_, hnone⟩
    exact hover.rewind_eq (run.reachable k) htaken (hmover ▸ hcallsOff)
  | false =>
    obtain ⟨next, hnext, hrewind⟩ := h.step hover hspared htaken (hmover ▸ hcallsOff)
      fun id huser hself => hpoll id huser (hself ▸ hlabel)
    have hgoes := sparing_label_eq_some hlabel (fun _ => hcallsOff) hnext
    have hworld := takes hgoes hnext
    refine ⟨⟨by rw [hworld, hrewind], fun id huser => ?_⟩, by rw [hgoes, hlabel]; rfl⟩
    subst huser
    obtain ⟨events, hstep, -⟩ := World.step_ok hnext
    obtain ⟨batch, hfound, -⟩ := (hspared.rests ((run.sparing _ n).reachable k) id rfl).found
    rw [hmover, ← h.callsOff_eq] at hcallsOff
    rw [hworld, hstep.looksCancelled_batch (List.getElem?_eq_some_iff.mp hfound).1,
      Task.raises_eq_false hcallsOff, h.unflagged id rfl]
    rfl

/-- What was over at moment `n` is over at every later one. -/
theorem over_later (hover : (run.world n).Over user) (hnm : n ≤ m) : (run.world m).Over user :=
  run.later (motive := (World.Over · user)) hnm hover
    fun hreachable hbefore htaken => hbefore.step hreachable htaken

/-- Up to a first poll that finds the flag up the two runs are alike. -/
theorem alike (hover : (run.world n).Over user)
    (huncancelled : (run.world n).machine.looksCancelled user = false)
    (hpolls : run.UnflaggedPolls user n m) (hnk : n ≤ k) (hkm : k ≤ m) : run.Alike user n k := by
  have hbefore : (run.sparing user n).world n = run.world n := sparing_before (Nat.le_refl n)
  induction hnk with
  | refl => exact ⟨congrArg _ hbefore, fun _ _ => by rw [hbefore, huncancelled]⟩
  | @step k hnk ih =>
    have hspared := over_later (hbefore.symm ▸ hover) hnk
    exact ((ih (Nat.le_of_succ_le hkm)).next hnk (over_later hover hnk) hspared
      (hpolls k hnk hkm)).1

/-- **The run without the cancellations of what is over is possible**, and nothing but those
cancellations and their flag is different in it. -/
theorem spares (hover : (run.world n).Over user)
    (huncancelled : (run.world n).machine.looksCancelled user = false)
    (hpolls : run.UnflaggedPolls user n m) : run.Spares user n (run.sparing user n) m := by
  have hspared : ((run.sparing user n).world n).Over user := by
    rwa [sparing_before (Nat.le_refl n)]
  have hworlds : ∀ k ≤ m,
      ((run.sparing user n).world k).rewind user = (run.world k).rewind user := by
    intro k hkm
    by_cases hnk : n ≤ k
    · exact (alike hover huncancelled hpolls hnk hkm).rewind_eq
    · rw [sparing_before (Nat.le_of_not_le hnk)]
  refine ⟨fun k => sparing_before, fun k hkm => ?_, hworlds, fun k hkm future => ?_,
    fun k hkm future hflag => ?_⟩
  · by_cases hnk : n ≤ k
    · rw [((alike hover huncancelled hpolls hnk (Nat.le_of_lt hkm)).next hnk (over_later hover hnk)
        (over_later hspared hnk) (hpolls k hnk hkm)).2]
      simp only [hnk, true_and]
    · rw [if_neg fun h => hnk h.1, sparing_label_before (Nat.lt_of_not_le hnk)]
  · rw [← CallFuture.poll_rewind, ← CallFuture.poll_rewind]
    exact congrArg (future.poll ·.machine) (hworlds k hkm)
  · by_cases hnk : n ≤ k
    · have halike := alike hover huncancelled hpolls hnk hkm
      rw [← future.poll_rewind ((over_later hspared hnk).rests ((run.sparing user n).reachable k))
          fun huser _ _ => halike.unflagged _ huser,
        ← future.poll_rewind ((over_later hover hnk).rests (run.reachable k)) hflag]
      exact congrArg (future.poll ·.machine) (hworlds k hkm)
    · rw [sparing_before (Nat.le_of_not_le hnk)]

/-! ## 4. Every call and every batch -/

/-- The execution of a call has returned; or the end of a batch has been told. -/
def Finished (run : Run config) (n : Nat) : User → Prop
  | .call id => ∃ i m result, m ≤ n ∧ run.Begins i id m ∧ run.Unbegun id m ∧
      run.Returned i id n result
  | .batch id => ∃ result, .terminal result ∈ (run.world n).log.callbacks id

/-- Cancelling the user from moment `n` on is in vain. -/
structure InVain (run : Run config) (user : User) (n : Nat) : Prop where
  /-- A call never looks cancelled. -/
  call : ∀ id, user = .call id → ∀ m, n ≤ m → (run.world m).machine.looksCancelled user = false
  /-- A batch looks cancelled from the first step of a cancellation on, and not before. -/
  batch : ∀ id, user = .batch id → ∀ m, n ≤ m →
    ((run.world m).machine.looksCancelled user = true ↔
      ∃ k, n ≤ k ∧ k < m ∧ run.mover? k = some (.stopping id .entry))
  /-- Otherwise a step of a cancellation leaves the pool, the calls, the batches, the other tasks and
  what is logged as they were. -/
  untouched : ∀ k, n ≤ k → (run.mover? k).any (Task.callsOff user) = true →
    (run.world (k + 1)).rewind user = (run.world k).rewind user
  /-- Everybody else goes the way that they would go without the cancellations, until a future of the
  batch is polled for the first time while the batch looks cancelled. -/
  spared : ∃ spared : Run config, ∀ m, run.UnflaggedPolls user n m → run.Spares user n spared m
  /-- Such a future starts a batch that looks as the batch does. -/
  passed : ∀ m, n ≤ m → ∀ future : BatchFuture, user = .batch future.batch →
    future.running = none → future.finished = false →
    ∃ batch, (run.world m).machine.batches[future.batch]? = some batch ∧
      (future.poll (run.world m).machine).2.2.1.batches = (run.world m).machine.batches ++
        [{ Batch.ofItems batch.items with
          started := true, cancelled := (run.world m).machine.looksCancelled user }]

/-- What has finished without being cancelled is over. -/
theorem Finished.over (h : run.Finished n user)
    (huncancelled : (run.world n).machine.looksCancelled user = false) :
    (run.world n).Over user := by
  cases user with
  | call id =>
    obtain ⟨i, m, result, hmn, hbegins, hfirst, hreturned⟩ := h
    obtain ⟨k, rfl⟩ := Nat.exists_eq_add_of_le hmn
    obtain ⟨call, hfound, hends⟩ := hbegins.tells hfirst hreturned
    cases hends with
    | cancelled hwon =>
      simp [Machine.looksCancelled, hfound, Call.isCancelled, hwon] at huncancelled
    | completed hwon => exact ⟨call, hfound, hwon⟩
  | batch id =>
    refine ⟨h, fun stage hmem => ?_⟩
    by_cases hentry : stage = .entry
    · subst hentry
      rfl
    · have hlooks := (run.reachable n).looksCancelled_of_begun hmem hentry
      exact absurd (hlooks.symm.trans huncancelled) (by simp)

/-- A batch that is over looks cancelled from the first step of a cancellation on. -/
theorem looksCancelled_iff {id : Nat} (hover : (run.world n).Over (.batch id))
    (huncancelled : (run.world n).machine.looksCancelled (.batch id) = false) (hnm : n ≤ m) :
    (run.world m).machine.looksCancelled (.batch id) = true ↔
      ∃ k, n ≤ k ∧ k < m ∧ run.mover? k = some (.stopping id .entry) := by
  induction hnm with
  | refl =>
    rw [huncancelled]
    exact iff_of_false Bool.false_ne_true fun ⟨k, hnk, hkn, _⟩ => Nat.not_lt.mpr hnk hkn
  | @step m hnm ih =>
    have hnext : (run.world (m + 1)).machine.looksCancelled (.batch id) = true ↔
        (run.world m).machine.looksCancelled (.batch id) = true ∨
          run.mover? m = some (.stopping id .entry) := by
      rcases run.moves m with ⟨hnone, hsame⟩ | ⟨hstep, -⟩
      · rw [hsame, hnone]
        simp
      · obtain ⟨batch, hfound, -⟩ := ((over_later hover hnm).rests (run.reachable m) id rfl).found
        rw [hstep.looksCancelled_batch (List.getElem?_eq_some_iff.mp hfound).1, Bool.or_eq_true,
          Task.raises_iff]
    rw [hnext, ih]
    constructor
    · rintro (⟨k, hnk, hkm, hmover⟩ | hmover)
      · exact ⟨k, hnk, Nat.lt_succ_of_lt hkm, hmover⟩
      · exact ⟨m, hnm, Nat.lt_succ_self m, hmover⟩
    · rintro ⟨k, hnk, hkm, hmover⟩
      rcases Nat.lt_succ_iff_lt_or_eq.mp hkm with hlt | rfl
      · exact .inl ⟨k, hnk, hlt, hmover⟩
      · exact .inr hmover

/-- **Cancelling what has finished is in vain**, for calls and for batches, except that a batch looks
cancelled afterwards. -/
theorem cancels_in_vain (hfinished : run.Finished n user)
    (huncancelled : (run.world n).machine.looksCancelled user = false) : run.InVain user n := by
  have hover := hfinished.over huncancelled
  constructor
  case call =>
    rintro id rfl m hnm
    obtain ⟨call, hfound, hcompleted⟩ := over_later hover hnm
    simp [Machine.looksCancelled, hfound, Call.isCancelled, hcompleted]
  case batch =>
    rintro id rfl m hnm
    exact looksCancelled_iff hover huncancelled hnm
  case untouched =>
    intro k hnk hmover
    rcases run.next k with ⟨hlabel, -⟩ | ⟨label, hlabel, htaken⟩
    · simp [Run.mover?, place?, hlabel] at hmover
    · refine (over_later hover hnk).rewind_eq (run.reachable k) htaken ?_
      rwa [Run.mover?, place?, hlabel, Option.bind_some] at hmover
  case spared =>
    exact ⟨run.sparing user n, fun m hpolls => spares hover huncancelled hpolls⟩
  case passed =>
    rintro m hnm future rfl hrunning hfinished
    obtain ⟨batch, hfound, -⟩ := ((over_later hover hnm).rests (run.reachable m) _ rfl).found
    refine ⟨batch, hfound, ?_⟩
    simp [BatchFuture.poll, hrunning, hfinished, hfound, Machine.addBatch, Machine.spawn,
      Machine.looksCancelled, ((run.reachable m).keyed hfound).clone_eq]

/-- What happens to a batch of one item whose response is cut short. -/
def oneItem : List Label :=
  [.order .newBatch, .order (.addItem 0 ⟨"a", ⟨"Ping", [], none⟩, ⟨[], .string⟩⟩),
    .order (.collect 0), .advance 0, .advance 0, .advance 1, .answer 1 .connected, .advance 1,
    .advance 1, .advance 1, .answer 1 .sent, .answer 1 (.received []), .advance 1, .advance 1,
    .advance 1, .advance 1, .advance 0, .advance 0, .advance 0, .advance 0, .advance 0, .advance 0,
    .advance 0]

/-- A batch is executed and then a call, and when both have finished both are cancelled. -/
def twoLate : List Label := oneItem ++
  [.order (.newCall ⟨"Ping", [7], none⟩ ⟨[], .string⟩), .order (.execute 0), .advance 2, .advance 2,
    .advance 2, .advance 2, .advance 2, .answer 2 .sent, .answer 2 (.received []), .advance 2,
    .advance 2, .advance 2, .advance 2, .order (.cancel 0), .order (.stop 0), .advance 3,
    .advance 4, .advance 4]

theorem twoLate_possible : ((World.new {}).after twoLate).isSome = true := by decide

/-- Both cancellations come to their ends, and the batch looks cancelled. -/
theorem cancels_in_vain_twoLate : ∃ run : Run {}, run.Finished 36 (.call 0) ∧
    run.Finished 36 (.batch 0) ∧ (run.world 41).machine.isOver 3 = true ∧
    (run.world 41).machine.isOver 4 = true ∧
    (run.world 41).machine.looksCancelled (.call 0) = false ∧
    (run.world 41).machine.looksCancelled (.batch 0) = true ∧
    run.InVain (.call 0) 36 ∧ run.InVain (.batch 0) 36 := by
  have hcall : (ofLabels {} twoLate twoLate_possible).Finished 36 (.call 0) := by
    refine ⟨2, 25, _, by decide, ⟨rfl, rfl⟩, ?_, rfl⟩
    intro stage hmem
    have hnone : ((ofLabels {} twoLate twoLate_possible).world 25).machine.tasks.any
        (Task.hasBegun 0) = false := rfl
    have hself := List.any_eq_false.mp hnone _ hmem
    cases stage with
    | entry => rfl
    | _ => exact absurd rfl hself
  have hbatch : (ofLabels {} twoLate twoLate_possible).Finished 36 (.batch 0) :=
    ⟨_, List.mem_of_getElem? (i := 1) rfl⟩
  exact ⟨ofLabels {} twoLate twoLate_possible, hcall, hbatch, rfl, rfl, rfl, rfl,
    cancels_in_vain hcall rfl, cancels_in_vain hbatch rfl⟩

/-! ## 5. A future after a late cancellation -/

/-- A batch that has finished is cancelled, and then a future of it is polled. -/
def stopped : List Label := oneItem ++
  [.order (.stop 0), .advance 2, .order (.poll 0), .advance 3, .advance 4, .advance 3, .advance 3,
    .advance 3, .advance 3]

/-- The same if the cancellation does not move. -/
def unstopped : List Label := oneItem ++
  [.order (.stop 0), .order (.poll 0), .advance 3, .advance 4, .advance 4, .advance 4, .advance 4,
    .answer 4 .sent, .answer 4 (.received []), .advance 4, .advance 4, .advance 4, .advance 4,
    .advance 3, .advance 3, .advance 3, .advance 3, .advance 3, .advance 3, .advance 3]

theorem stopped_possible : ((World.new {}).after stopped).isSome = true := by decide

theorem unstopped_possible : ((World.new {}).after unstopped).isSome = true := by decide

/-- **A batch that has finished is changed by a late cancellation**: it looks cancelled, and a future
of it that would have answered the item ends with a cancellation. -/
theorem late_stop_cancels_future : ∃ run other : Run {}, run.world 24 = other.world 24 ∧
    run.Finished 24 (.batch 0) ∧ (run.world 24).machine.looksCancelled (.batch 0) = false ∧
    run.mover? 24 = some (.stopping 0 .entry) ∧
    (run.world 25).machine.looksCancelled (.batch 0) = true ∧
    (run.world 32).log.callbacks 1 = [.terminal (.failure .cancelled [])] ∧
    ∃ error, (other.world 43).log.callbacks 1 =
      [.delivery (.itemError "a" error), .terminal (.complete [] [("a", error)])] :=
  ⟨ofLabels {} stopped stopped_possible, ofLabels {} unstopped unstopped_possible, rfl,
    ⟨_, List.mem_of_getElem? (i := 1) rfl⟩, rfl, rfl, rfl, rfl, _, rfl⟩

end Run

end RemoteCall.Client
