/-
# What a future promises

`Usage.Contract` says for a future of a call or a batch, in whatever way it and the client are used:
before its first poll nothing is asked of the endpoint for it; if it was cancelled by then it
resolves to that it was cancelled, and nothing ever is asked; otherwise the poll does what somebody
does who clones the call or batch and runs the clone, that run is the only one, and what comes of it
is what the future resolves to; a future that has resolved is spent; and whatever is done for a
future leaves all calls and batches but its clone as they are.

There is one exception to the last point, by design: a future of a batch that is cancelled before
its first poll has no clone yet, and so the batch that it was made from is cancelled.  A user who
wants to keep a batch makes the future from a clone of it.
-/
import RemoteCall.Proofs.Client.Futures.Clones

namespace RemoteCall.Client

/-- The orders of a user who clones a call or batch and runs the clone. -/
def User.runOrders (clone : Nat) : User → List Order
  | call id => [.cloneCall id, .execute clone]
  | batch id => [.cloneBatch id, .enqueue clone]

/-- The call is the same in both, and so is the batch, except that it may have been cancelled. -/
def Machine.Spares (machine machine' : Machine) : User → Prop
  | .call id => machine'.calls[id]? = machine.calls[id]?
  | .batch id => ∃ batch batch', machine.batches[id]? = some batch ∧
    machine'.batches[id]? = some batch' ∧
    batch' = { batch with cancelled := batch'.cancelled, aborts := batch'.aborts }

namespace Usage

/-! ## 1. The contract -/

section

variable {config : Config} (usage : Usage config) (f n : Nat) (template : User)

/-- Task `i`, which runs the clone, gets its turns. -/
def FairTo (i : TaskId) : (clone : User) → Prop
  | .call _ => usage.run.FairTo i
  | .batch id => usage.run.Fair id

/-- From some moment on every poll finds that the future has resolved. -/
def Arrives : Prop :=
  ∃ m, ∀ k, m ≤ k → usage.use? k = some (.poll f) →
    ∃ l ≤ k, ∃ resolution, usage.Resolves f l resolution

/-- What the only run of a clone has come to at moment `m`. -/
inductive Yields (m : Nat) (i : TaskId) (clone : Nat) : User → Resolution → Prop
  | call {id : Nat} {call : Call} {result : Except Error Datum}
    (template_eq : (usage.scene n).world.machine.calls[id]? = some call)
    (yields : usage.run.CallYields i clone (2 * (n + 1)) (2 * m) call.clone result) :
    Yields m i clone (.call id) (.call result)
  | batch {id : Nat} {batch : Batch} {result : BatchEnd}
    (template_eq : (usage.scene n).world.machine.batches[id]? = some batch)
    (yields : usage.run.BatchYields clone (2 * m) batch.items result) :
    Yields m i clone (.batch id) (.batch result)

/-- The future was cancelled in time. -/
structure Forestalls : Prop where
  cancelled : ∀ m resolution, usage.Resolves f m resolution → resolution = .cancelled template
  silent : ∀ m, ¬ usage.Asks f m
  /-- A future of a call resolves at once, and the client stays as it is. -/
  call : ∀ id, template = .call id → usage.Resolves f n (.cancelled template) ∧
    (usage.scene (n + 1)).world = (usage.scene n).world
  /-- A future of a batch resolves when its clone is closed. -/
  batch : ∀ id, template = .batch id → ∃ i clone, usage.clone? f (n + 1) = some (.batch clone) ∧
    (usage.FairTo i (.batch clone) → usage.Arrives f)

/-- The future runs one clone, once. -/
structure RunsOnce (i : TaskId) (clone : Nat) : Prop where
  /-- The first poll does what a user does who clones and runs the clone. -/
  starts : (usage.scene n).world.after ((template.runOrders clone).map .order) =
    some (usage.scene (n + 1)).world
  fresh : ¬ (usage.scene n).world.machine.Has (template.clone clone)
  clone_eq : ∀ m, n < m → usage.clone? f m = some (template.clone clone)
  own : ∀ m g, n < m → usage.clone? g m = some (template.clone clone) → g = f
  sole : ∀ m, n < m → (usage.scene m).world.machine.Sole (template.clone clone) i
  /-- Later polls start nothing. -/
  rests : ∀ m, n < m → usage.use? m = some (.poll f) →
    (usage.scene (m + 1)).world = (usage.scene m).world
  /-- As long as the future has not resolved, a poll answers what has come of the task. -/
  answers : ∀ m, n < m → usage.use? m = some (.poll f) →
    (∀ l < m, ∀ resolution, ¬ usage.Resolves f l resolution) →
    (usage.scene m).answer? f =
      (usage.scene m).world.machine.tasks[i]?.bind template.outcome?
  yields : ∀ m resolution, n < m →
    (usage.scene m).world.machine.tasks[i]?.bind template.outcome? = some resolution →
    usage.Yields n m i clone template resolution
  arrives : usage.FairTo i (template.clone clone) → usage.Arrives f

/-- **What a future promises.** -/
structure Contract : Prop where
  /-- Before the first poll nobody asks the endpoint for anything on behalf of the future. -/
  cold : ∀ n, usage.Unpolled f n → ¬ usage.Asks f n
  /-- To use the future does not itself send anything. -/
  quiet : ∀ n, usage.Uses f n → (usage.scene (n + 1)).world.log = (usage.scene n).world.log ∧
    (usage.scene (n + 1)).world.machine.pool = (usage.scene n).world.machine.pool
  forestalls : ∀ n, usage.FirstPoll f n → usage.CalledOff f n template →
    usage.Forestalls f n template
  runs : ∀ n, usage.FirstPoll f n → ¬ usage.CalledOff f n template →
    ∃ i clone, usage.RunsOnce f n template i clone
  /-- A future that has resolved is spent, and polling it does nothing. -/
  spent : ∀ n m resolution, usage.Resolves f n resolution → n < m →
    usage.use? m = some (.poll f) → (usage.scene m).answer? f = some (.spent template) ∧
      usage.scene (m + 1) = usage.scene m
  /-- What is done for the future leaves everybody as they are but its clone, and what it was made
  from if it is cancelled before its first poll. -/
  apart : ∀ n user, usage.Acts f n → (usage.scene n).world.machine.Has user →
    usage.clone? f n ≠ some user → (user = template → ¬ usage.Recalled f (n + 1)) →
    (usage.scene n).world.machine.Same (usage.scene (n + 1)).world.machine user
  /-- Even then a call is left as it is, and a batch is cancelled but neither started nor extended.
  -/
  spares : ∀ n, usage.Acts f n →
    (usage.scene n).world.machine.Spares (usage.scene (n + 1)).world.machine template

end

/-! ## 2. Polls -/

section

variable {config : Config} {usage : Usage config} {f n m : Nat} {template : User} {held : Held}
  {future : Future} {resolution : Resolution} {i : TaskId} {clone : Nat}

/-- What a poll answers and leaves behind. -/
theorem polls (huse : usage.use? n = some (.poll f)) :
    ∃ future, (usage.scene n).held[f]? = some ⟨future, false⟩ ∧
      (usage.scene n).answer? f = (future.poll (usage.scene n).world.machine).1 ∧
      usage.scene (n + 1) =
        ⟨⟨(future.poll (usage.scene n).world.machine).2.2, (usage.scene n).world.log⟩,
          (usage.scene n).held.set f ⟨(future.poll (usage.scene n).world.machine).2.1, false⟩⟩ := by
  obtain ⟨future, hheld⟩ := held_of_use huse (.inr (.inl rfl))
  refine ⟨future, hheld, ?_, (goes_of_use huse).of_poll hheld⟩
  rw [Scene.answer?, Scene.future?_eq_some.mpr hheld, Option.bind_some]

/-- A future is finished once a poll has answered. -/
theorem finished_iff (hheld : (usage.scene n).held[f]? = some held) :
    held.future.finished = true ↔
      ∃ k < n, usage.use? k = some (.poll f) ∧ ((usage.scene k).answer? f).isSome = true := by
  refine usage.held_induct f (P := fun n held => held.future.finished = true ↔
    ∃ k < n, usage.use? k = some (.poll f) ∧ ((usage.scene k).answer? f).isSome = true)
    (fun n other huse hf => ?_) (fun n held held' hheld _ hbecomes ih => ?_) hheld
  · rw [Future.finished_of]
    refine ⟨fun h => (by cases h), ?_⟩
    rintro ⟨k, hk, hpoll, -⟩
    exact absurd (lt_of_use hpoll (.inr (.inl rfl)) (Nat.le_of_lt_succ hk)) (by simp [hf])
  · rw [Nat.exists_lt_succ_right, ← ih]
    generalize huse : usage.use? n = use? at hbecomes
    cases hbecomes with
    | kept _ hother => simp [hother]
    | cancelled => simp
    | dropped => simp
    | polled =>
      obtain ⟨future, hfuture, hanswer, -⟩ := polls huse
      cases hheld.symm.trans hfuture
      rw [Future.finished_poll (has_template hheld), hanswer, Bool.or_eq_true]
      simp

/-- A future is finished if and only if it has resolved. -/
theorem finished_iff_resolved (hheld : (usage.scene n).held[f]? = some held) :
    held.future.finished = true ↔ ∃ k < n, ∃ resolution, usage.Resolves f k resolution := by
  rw [finished_iff hheld]
  constructor
  · rintro ⟨k, hk, hpoll, hanswer⟩
    -- the first of the polls that answer
    induction k using Nat.strongRecOn with
    | _ k ih =>
      by_cases hfirst : ∀ l < k, usage.use? l = some (.poll f) → (usage.scene l).answer? f = none
      · obtain ⟨resolution, hresolution⟩ := Option.isSome_iff_exists.mp hanswer
        exact ⟨k, hk, resolution, hpoll, hresolution, hfirst⟩
      · push Not at hfirst
        obtain ⟨l, hl, hpoll', hanswer'⟩ := hfirst
        exact ih l hl (Nat.lt_trans hl hk) hpoll' (Option.isSome_iff_ne_none.mpr hanswer')
  · rintro ⟨k, hk, resolution, hresolves⟩
    exact ⟨k, hk, hresolves.polled, by rw [hresolves.answer_eq]; rfl⟩

/-- A future resolves once. -/
theorem Resolves.unique {other : Resolution} (h : usage.Resolves f n resolution)
    (h' : usage.Resolves f m other) : n = m ∧ resolution = other := by
  have hearlier : ∀ {n m resolution other}, usage.Resolves f n resolution →
      usage.Resolves f m other → ¬ n < m := by
    intro n m resolution other h h' hlt
    cases h.answer_eq.symm.trans (h'.first n hlt h.polled)
  obtain rfl : n = m := Nat.le_antisymm (Nat.le_of_not_lt (hearlier h' h))
    (Nat.le_of_not_lt (hearlier h h'))
  exact ⟨rfl, Option.some.inj (h.answer_eq.symm.trans h'.answer_eq)⟩

/-- **A future that has resolved is spent.** -/
theorem Resolves.spent (hmade : usage.Made f template) (h : usage.Resolves f n resolution)
    (hnm : n < m) (huse : usage.use? m = some (.poll f)) :
    (usage.scene m).answer? f = some (.spent template) ∧
      usage.scene (m + 1) = usage.scene m := by
  obtain ⟨future, hheld, hanswer, hscene⟩ := polls huse
  have hfinished := (finished_iff_resolved hheld).mpr ⟨n, hnm, resolution, h⟩
  have hpolled := Future.poll_ok (has_template hheld)
  generalize future.poll (usage.scene m).world.machine = polled at hanswer hscene hpolled
  cases hpolled with
  | spent =>
    obtain ⟨hlt, hself⟩ := List.getElem?_eq_some_iff.mp hheld
    refine ⟨by rw [hanswer, hmade.template_eq hheld], ?_⟩
    rw [hscene, ← hself, List.set_getElem_self]
  | pending hunfinished | resolved hunfinished | withheld hunfinished | startedCall hunfinished
  | startedBatch hunfinished => cases hunfinished.symm.trans hfinished

end

/-! ## 3. Futures that were cancelled in time -/

section

variable {config : Config} {usage : Usage config} {f n m j : Nat} {template : User} {held : Held}
  {future : Future} {resolution : Resolution} {i : TaskId} {clone : Nat}

theorem clone?_eq (hheld : (usage.scene n).held[f]? = some held) :
    usage.clone? f n = held.future.clone? := by
  rw [clone?, hheld, Option.bind_some]

/-- A task asks for something on behalf of a future only if it works for its clone. -/
theorem Tends.silent (h : usage.Tends f n j)
    (hclone : ∀ task, (usage.scene n).world.machine.tasks[j]? = some task →
      usage.clone? f n = some task.user → (usage.scene n).world.machine.operation? j = none) :
    (usage.scene n).world.machine.operation? j = none := by
  cases h.worksFor with
  | clone htask hheld hself => exact hclone _ htask ((clone?_eq hheld).trans hself)
  | template htask => simp [Machine.operation?, htask]

theorem not_asks (h : ∀ j task, (usage.scene n).world.machine.tasks[j]? = some task →
    usage.clone? f n = some task.user → (usage.scene n).world.machine.operation? j = none) :
    ¬ usage.Asks f n := by
  rintro ⟨j, htends, hasks⟩
  rw [htends.silent (h j)] at hasks
  cases hasks

/-- **Before its first poll nothing is asked for a future.** -/
theorem Unpolled.cold (h : usage.Unpolled f n) : ¬ usage.Asks f n := by
  refine not_asks fun j task _ hclone => ?_
  obtain ⟨held, hheld, hself⟩ := Option.bind_eq_some_iff.mp hclone
  rw [Future.clone?, (h.idle hheld).2] at hself
  cases hself

/-- What a future is at its first poll. -/
theorem FirstPoll.fresh (h : usage.FirstPoll f n) (hmade : usage.Made f template) :
    ∃ future, (usage.scene n).held[f]? = some ⟨future, false⟩ ∧ future.finished = false ∧
      future.running = none ∧ future.template = template ∧
      (usage.scene n).world.machine.Has future.template := by
  obtain ⟨future, hheld⟩ := held_of_use h.1 (.inr (.inl rfl))
  obtain ⟨hunfinished, hidle⟩ := h.2.idle hheld
  exact ⟨future, hheld, hunfinished, hidle, hmade.template_eq hheld, has_template hheld⟩

/-- A future that has resolved without a clone gets none. -/
theorem clone?_of_withheld (hheld : (usage.scene n).held[f]? = some held)
    (hfinished : held.future.finished = true) (hidle : held.future.running = none) (hnm : n ≤ m) :
    usage.clone? f m = none := by
  obtain ⟨held', hheld', -, hidle'⟩ := held_later (P := fun _ held =>
    held.future.finished = true ∧ held.future.running = none) hheld ⟨hfinished, hidle⟩
    (fun k before after hbefore _ hbecomes h => by
      have hhas := has_template hbefore
      refine ⟨hbecomes.finished_eq hhas h.1, ?_⟩
      rcases hbecomes.running_cases hhas with hsame | ⟨-, -, _, _, hstarts, -⟩
      · exact hsame.trans h.2
      · cases hstarts.unfinished.symm.trans h.1) hnm
  rw [clone?_eq hheld', Future.clone?, hidle', Option.map_none]

/-- **A future of a call that was cancelled in time** resolves at its first poll, and nothing is
ever asked for it. -/
theorem FirstPoll.withheld {id : Nat} (h : usage.FirstPoll f n)
    (hmade : usage.Made f (.call id)) (hcalled : usage.CalledOff f n (.call id)) :
    usage.Resolves f n (.cancelled (.call id)) ∧
      (usage.scene (n + 1)).world = (usage.scene n).world ∧ ∀ m, ¬ usage.Asks f m := by
  obtain ⟨future, hheld, hunfinished, hidle, htemplate, hhas⟩ := h.fresh hmade
  obtain ⟨other, hheld', hanswer, hscene⟩ := polls h.1
  cases hheld.symm.trans hheld'
  have hcalled' := (h.calledOff_iff hheld).mp (by rw [htemplate]; exact hcalled)
  rcases Future.first_poll hhas hunfinished hidle with ⟨_, -, -, hpoll⟩ | ⟨hbatch | huncancelled, -⟩
  · rw [hpoll] at hanswer hscene
    have hlt := (List.getElem?_eq_some_iff.mp hheld).1
    have hnext : (usage.scene (n + 1)).held[f]? = some ⟨future.finish, false⟩ := by
      rw [hscene]
      exact List.getElem?_set_self hlt
    refine ⟨⟨h.1, htemplate ▸ hanswer, fun k hk hpoll => absurd hpoll (h.2 k hk)⟩, by rw [hscene],
      fun m => ?_⟩
    rcases Nat.lt_or_ge n m with hnm | hmn
    · refine not_asks fun j task _ hclone => ?_
      rw [clone?_of_withheld hnext Future.finished_finish (Future.running_finish.trans hidle) hnm]
        at hclone
      cases hclone
    · exact Unpolled.cold fun k hk => h.2 k (Nat.lt_of_lt_of_le hk hmn)
  · obtain ⟨_, hbatch⟩ := hbatch
    cases htemplate.symm.trans hbatch
  · exact absurd hcalled' huncancelled

/-! ## 4. Futures that run a clone -/

/-- Future `f` has been polled for the first time at moment `n`, and task `i` runs its clone. -/
structure Runs (usage : Usage config) (f n : Nat) (template : User) (i : TaskId) (clone : Nat) :
    Prop where
  first : usage.FirstPoll f n
  unanswered : (usage.scene n).answer? f = none
  starts : ∃ future : Future, future.template = template ∧
    i = (usage.scene n).world.machine.tasks.length ∧
    future.Starts (usage.scene n).world.machine clone (usage.scene (n + 1)).world.machine
  log_eq : (usage.scene (n + 1)).world.log = (usage.scene n).world.log
  later : ∀ m, n < m → ∃ held, (usage.scene m).held[f]? = some held ∧
    held.future.running = some (i, clone) ∧ held.future.template = template

/-- **The first poll starts a clone** of a batch, and of a call that was not cancelled. -/
theorem FirstPoll.runs (h : usage.FirstPoll f n) (hmade : usage.Made f template)
    (hstarts : (∃ id, template = .batch id) ∨ ¬ usage.CalledOff f n template) :
    ∃ i clone, usage.Runs f n template i clone := by
  obtain ⟨future, hheld, hunfinished, hidle, htemplate, hhas⟩ := h.fresh hmade
  obtain ⟨other, hheld', hanswer, hscene⟩ := polls h.1
  cases hheld.symm.trans hheld'
  rcases Future.first_poll hhas hunfinished hidle with ⟨id, hid, hcalled, -⟩ |
    ⟨-, clone, machine', hstarted⟩
  · rcases hstarts with ⟨id', rfl⟩ | huncalled
    · cases htemplate.symm.trans hid
    · exact absurd (htemplate ▸ (h.calledOff_iff hheld).mpr hcalled) huncalled
  · rw [hstarted.poll_eq] at hanswer hscene
    have hlt := (List.getElem?_eq_some_iff.mp hheld).1
    have hnext : (usage.scene (n + 1)).held[f]? =
        some ⟨future.start (usage.scene n).world.machine.tasks.length clone, false⟩ := by
      rw [hscene]
      exact List.getElem?_set_self hlt
    refine ⟨_, clone, h, hanswer, ⟨future, htemplate, rfl, by rw [hscene]; exact hstarted⟩,
      by rw [hscene], fun m hnm => ?_⟩
    exact held_later (P := fun _ held => held.future.running = some (_, clone) ∧
      held.future.template = template) hnext
      ⟨Future.running_start, Future.template_start.trans htemplate⟩
      (fun k before after hbefore _ hbecomes hrunning => by
        have hhas := has_template hbefore
        exact ⟨hbecomes.running_eq hhas hrunning.1, (hbecomes.template_eq hhas).trans hrunning.2⟩)
      hnm

namespace Runs

variable (h : usage.Runs f n template i clone)

include h

theorem clone?_eq (hnm : n < m) : usage.clone? f m = some (template.clone clone) := by
  obtain ⟨held, hheld, hrunning, htemplate⟩ := h.later m hnm
  rw [Usage.clone?_eq hheld, Future.clone?_eq hrunning, htemplate]

/-- **The clone is run once**: nobody else runs it at any moment. -/
theorem sole (hnm : n < m) : (usage.scene m).world.machine.Sole (template.clone clone) i := by
  obtain ⟨held, hheld, hrunning, rfl⟩ := h.later m hnm
  exact ((usage.sound m).sole held (List.mem_of_getElem? hheld) i clone hrunning).2

/-- No other future runs the clone. -/
theorem own {g : Nat} (hnm : n < m) (hclone : usage.clone? g m = some (template.clone clone)) :
    g = f := by
  obtain ⟨held, hheld, hrunning, rfl⟩ := h.later m hnm
  obtain ⟨held', hheld', hclone'⟩ := Option.bind_eq_some_iff.mp hclone
  exact (usage.sound m).own g f held' held _ hheld' hheld hclone' (Future.clone?_eq hrunning)

/-- **Later polls start nothing**, and answer what has come of the task. -/
theorem polled (hnm : n < m) (huse : usage.use? m = some (.poll f)) :
    (usage.scene (m + 1)).world = (usage.scene m).world ∧
      ((∀ l < m, ∀ resolution, ¬ usage.Resolves f l resolution) →
        (usage.scene m).answer? f =
          (usage.scene m).world.machine.tasks[i]?.bind template.outcome?) := by
  obtain ⟨held, hheld, hrunning, htemplate⟩ := h.later m hnm
  obtain ⟨future, hheld', hanswer, hscene⟩ := polls huse
  cases hheld.symm.trans hheld'
  have hpolled := Future.poll_ok (has_template hheld)
  generalize future.poll (usage.scene m).world.machine = polled at hanswer hscene hpolled
  cases hpolled with
  | spent hfinished =>
    refine ⟨by rw [hscene], fun hunresolved => ?_⟩
    obtain ⟨l, hl, resolution, hresolves⟩ := (finished_iff_resolved hheld).mp hfinished
    exact absurd hresolves (hunresolved l hl resolution)
  | pending _ hrunning' hgoing =>
    cases hrunning.symm.trans hrunning'
    exact ⟨by rw [hscene], fun _ => by rw [hanswer, ← htemplate, hgoing]⟩
  | resolved _ hrunning' hover =>
    cases hrunning.symm.trans hrunning'
    exact ⟨by rw [hscene], fun _ => by rw [hanswer, ← htemplate, hover]⟩
  | withheld _ hidle | startedCall _ hidle | startedBatch _ hidle =>
    cases hidle.symm.trans hrunning

/-- **What the future resolves to is what came of the task.** -/
theorem resolved (hresolves : usage.Resolves f m resolution) :
    n < m ∧ (usage.scene m).world.machine.tasks[i]?.bind template.outcome? = some resolution := by
  have hnm : n < m := by
    rcases Nat.lt_trichotomy n m with hlt | rfl | hlt
    · exact hlt
    · cases h.unanswered.symm.trans hresolves.answer_eq
    · exact absurd hresolves.polled (h.first.2 m hlt)
  refine ⟨hnm, ?_⟩
  rw [← (h.polled hnm hresolves.polled).2 fun l hl other hother =>
    absurd (hother.unique hresolves).1 (Nat.ne_of_lt hl)]
  exact hresolves.answer_eq

/-- When the task is over polls find that the future has resolved. -/
theorem arrives (m₀ : Nat) (hover : ∀ m, m₀ ≤ m → n < m →
    ((usage.scene m).world.machine.tasks[i]?.bind template.outcome?).isSome = true) :
    usage.Arrives f := by
  refine ⟨max m₀ (n + 1), fun k hk huse => ?_⟩
  obtain ⟨hm₀, hnk⟩ := Nat.max_le.mp hk
  by_cases hresolved : ∃ l < k, ∃ resolution, usage.Resolves f l resolution
  · obtain ⟨l, hl, resolution, hresolves⟩ := hresolved
    exact ⟨l, Nat.le_of_lt hl, resolution, hresolves⟩
  · have hunresolved : ∀ l < k, ∀ resolution, ¬ usage.Resolves f l resolution :=
      fun l hl resolution hresolves => hresolved ⟨l, hl, resolution, hresolves⟩
    obtain ⟨resolution, hresolution⟩ := Option.isSome_iff_exists.mp (hover k hm₀ hnk)
    obtain ⟨held, hheld, -, -⟩ := h.later k hnk
    refine ⟨k, Nat.le_refl k, resolution, huse,
      ((h.polled hnk huse).2 hunresolved).trans hresolution, fun l hl hpoll => ?_⟩
    by_contra hanswer
    exact hresolved ((finished_iff_resolved hheld).mp
      ((finished_iff hheld).mpr ⟨l, hl, hpoll, Option.isSome_iff_ne_none.mpr hanswer⟩))

/-- The execution of a clone of a call has not begun when the future has just been polled. -/
theorem call_entry {id : Nat} (htemplate : template = .call id) :
    ∃ call, (usage.scene n).world.machine.calls[id]? = some call ∧
      (usage.run.world (2 * (n + 1))).machine.calls[clone]? = some call.clone ∧
      (usage.run.world (2 * (n + 1))).machine.tasks[i]? = some (.executing clone .entry) := by
  obtain ⟨future, rfl, rfl, hstarts⟩ := h.starts
  obtain ⟨call, hfound, rfl, hmachine⟩ := hstarts.ofCall id htemplate
  rw [usage.run_world, hmachine]
  exact ⟨call, hfound, by simp, by simp⟩

/-- The clone of a batch is about to be launched then. -/
theorem batch_launching {id : Nat} (htemplate : template = .batch id) :
    ∃ batch workers, (usage.scene n).world.machine.batches[id]? = some batch ∧
      usage.run.Led clone (2 * (n + 1))
        { batch.clone with started := true, cancelled := batch.cancelled } .launched workers := by
  have hsole := h.sole (Nat.lt_succ_self n)
  obtain ⟨future, rfl, rfl, hstarts⟩ := h.starts
  obtain ⟨batch, hfound, rfl, hmachine⟩ := hstarts.ofBatch id htemplate
  rw [htemplate, ← usage.run_world] at hsole
  have hbatch : (usage.run.world (2 * (n + 1))).machine.batches[
      (usage.scene n).world.machine.batches.length]? =
      some { batch.clone with started := true, cancelled := batch.cancelled } := by
    rw [usage.run_world, hmachine]
    simp
  obtain ⟨collector, hled⟩ := Run.led_of_going hbatch (.inl rfl)
  have htask := hled.task_eq hsole
  rw [usage.run_world, hmachine] at htask
  simp only [List.getElem?_concat_length, Option.some.injEq, Task.collecting.injEq] at htask
  obtain ⟨-, rfl⟩ := htask
  exact ⟨batch, _, hfound, hled⟩

/-- **What comes of the task is what comes of a clone that is run once.** -/
theorem yields (hnm : n < m)
    (houtcome : (usage.scene m).world.machine.tasks[i]?.bind template.outcome? = some resolution) :
    usage.Yields n m i clone template resolution := by
  have hsole := h.sole hnm
  rw [← usage.run_world m] at hsole houtcome
  have hle : 2 * (n + 1) ≤ 2 * m := by omega
  cases template with
  | call id =>
    rw [Future.bind_outcome?_call] at houtcome
    obtain ⟨result, hresult, rfl⟩ := Option.map_eq_some_iff.mp houtcome
    obtain ⟨call, hfound, hcall, hentry⟩ := h.call_entry rfl
    exact .call hfound (Run.callYields hle hcall hentry hsole hresult)
  | batch id =>
    rw [Future.bind_outcome?_batch] at houtcome
    obtain ⟨result, hresult, rfl⟩ := Option.map_eq_some_iff.mp houtcome
    obtain ⟨batch, workers, hfound, hled⟩ := h.batch_launching rfl
    obtain ⟨batch', collector', workers', hled', -⟩ := hled.later hle
    have hyields := hled'.yields hsole hresult
    rw [hled.items_eq hled'] at hyields
    exact .batch hfound hyields

/-- **The future resolves if its task gets its turns.** -/
theorem arrives_of_fair (hfair : usage.FairTo i (template.clone clone)) : usage.Arrives f := by
  cases template with
  | call id =>
    obtain ⟨call, -, -, hentry⟩ := h.call_entry rfl
    obtain ⟨m₀, hover⟩ := Run.FairTo.outcome hfair hentry
    refine h.arrives m₀ fun m hm₀ _ => ?_
    rw [← usage.run_world m, Future.bind_outcome?_call, Option.isSome_map]
    exact hover _ (by omega)
  | batch id =>
    obtain ⟨batch, workers, -, hled⟩ := h.batch_launching rfl
    obtain ⟨m₀, batch', collector', workers', hled', hover⟩ := hled.eventually_over hfair
    refine h.arrives m₀ fun m hm₀ hnm => ?_
    have hle : m₀ ≤ 2 * m := by omega
    obtain ⟨batch'', workers'', hled'', -⟩ := hled'.quiet hover hle
    have hsole := h.sole hnm
    rw [← usage.run_world m] at hsole ⊢
    rw [Future.bind_outcome?_batch, Option.isSome_map]
    exact hled''.outcome hsole hover

/-- The first poll does what somebody does who clones a call or batch and runs the clone. -/
theorem after_runOrders
    (huncancelled : (usage.scene n).world.machine.looksCancelled template = false) :
    (usage.scene n).world.after ((template.runOrders clone).map .order) =
      some (usage.scene (n + 1)).world := by
  have hlog := h.log_eq
  obtain ⟨future, rfl, -, hstarts⟩ := h.starts
  generalize hmachine : (usage.scene (n + 1)).world.machine = machine' at hstarts
  have hworld : (usage.scene (n + 1)).world = ⟨machine', (usage.scene n).world.log⟩ := by
    rw [← hmachine, ← hlog]
  rw [hworld]
  cases htemplate : future.template with
  | call id =>
    obtain ⟨call, hfound, rfl, rfl⟩ := hstarts.ofCall id htemplate
    simp [User.runOrders, World.after, World.step, Machine.obey, hfound, Machine.addCall,
      Machine.spawn]
  | batch id =>
    obtain ⟨batch, hfound, rfl, rfl⟩ := hstarts.ofBatch id htemplate
    have hflag : batch.cancelled = false := by
      simpa [htemplate, Machine.looksCancelled, hfound] using huncancelled
    simp [User.runOrders, World.after, World.step, Machine.obey, hfound, Machine.addBatch,
      Machine.spawn, Machine.enqueue, Batch.clone, Batch.ofItems, hflag]

/-- **A future that was not cancelled in time runs its clone once.** -/
theorem runsOnce (huncalled : ¬ usage.CalledOff f n template) :
    usage.RunsOnce f n template i clone where
  starts := h.after_runOrders (Bool.eq_false_iff.mpr fun hlooks => huncalled (.inr hlooks))
  fresh := by
    obtain ⟨future, rfl, -, hstarts⟩ := h.starts
    exact hstarts.fresh
  clone_eq _ hnm := h.clone?_eq hnm
  own _ _ hnm hclone := h.own hnm hclone
  sole _ hnm := h.sole hnm
  rests _ hnm huse := (h.polled hnm huse).1
  answers _ hnm huse hunresolved := (h.polled hnm huse).2 hunresolved
  yields _ _ hnm houtcome := h.yields hnm houtcome
  arrives hfair := h.arrives_of_fair hfair

/-- **A future of a batch that was cancelled in time** resolves to that, and nothing is ever asked
for it. -/
theorem forestalled {id : Nat} (htemplate : template = .batch id)
    (hmarked : (usage.scene n).world.machine.looksCancelled template = true) :
    (∀ m resolution, usage.Resolves f m resolution → resolution = .cancelled template) ∧
      ∀ m, ¬ usage.Asks f m := by
  subst htemplate
  obtain ⟨batch, workers, hfound, hled⟩ := h.batch_launching rfl
  have hflag : batch.cancelled = true := by
    simpa [Machine.looksCancelled, hfound] using hmarked
  have hidle : ∀ m, n < m → ∃ batch' collector' workers',
      usage.run.Led clone (2 * m) batch' collector' workers' ∧
        Forestalled batch' collector' workers' :=
    fun m hnm => hled.forestalled rfl hflag (by omega)
  refine ⟨fun m resolution hresolves => ?_, fun m => ?_⟩
  · obtain ⟨hnm, houtcome⟩ := h.resolved hresolves
    obtain ⟨batch', collector', workers', hled', hidle'⟩ := hidle m hnm
    have hsole := h.sole hnm
    rw [← usage.run_world m] at hsole houtcome
    rw [Future.bind_outcome?_batch] at houtcome
    obtain ⟨result, hresult, rfl⟩ := Option.map_eq_some_iff.mp houtcome
    rw [hled'.forestalled_outcome hidle' hsole hresult]
    rfl
  · rcases Nat.lt_or_ge n m with hnm | hmn
    · refine not_asks fun j task htask hclone => ?_
      obtain ⟨batch', collector', workers', hled', hidle'⟩ := hidle m hnm
      rw [← usage.run_world m] at htask ⊢
      refine hled'.forestalled_silent hidle' htask ?_
      exact Option.some.inj (hclone.symm.trans (h.clone?_eq hnm))
    · exact Unpolled.cold fun k hk => h.first.2 k (Nat.lt_of_lt_of_le hk hmn)

end Runs

/-- **A future that was cancelled in time resolves to that**, and nothing is ever asked for it. -/
theorem FirstPoll.forestalls (h : usage.FirstPoll f n) (hmade : usage.Made f template)
    (hcalled : usage.CalledOff f n template) : usage.Forestalls f n template := by
  cases template with
  | call id =>
    obtain ⟨hresolves, hworld, hsilent⟩ := h.withheld hmade hcalled
    exact ⟨fun m resolution hresolves' => (hresolves'.unique hresolves).2, hsilent,
      fun _ _ => ⟨hresolves, hworld⟩, fun _ hbatch => by cases hbatch⟩
  | batch id =>
    obtain ⟨future, hheld, -, -, htemplate, -⟩ := h.fresh hmade
    obtain ⟨i, clone, hruns⟩ := h.runs hmade (.inl ⟨id, rfl⟩)
    have hmarked : (usage.scene n).world.machine.looksCancelled (.batch id) = true := by
      rcases (h.calledOff_iff hheld).mp (by rw [htemplate]; exact hcalled) with hflagged | hlooks
      · cases future with
        | call => cases htemplate
        | batch => cases hflagged
      · rwa [htemplate] at hlooks
    obtain ⟨hcancelled, hsilent⟩ := hruns.forestalled rfl hmarked
    exact ⟨hcancelled, hsilent, fun _ hcall => (by cases hcall),
      fun _ _ => ⟨i, clone, hruns.clone?_eq (Nat.lt_succ_self n), hruns.arrives_of_fair⟩⟩

end

/-! ## 5. What others notice -/

section

variable {config : Config} {usage : Usage config} {f n : Nat} {user template : User}

/-- A use of a future does one of few things to the client. -/
theorem Uses.does (h : usage.Uses f n) : ∃ use, usage.use? n = some use ∧
    (usage.scene n).Does f use (usage.scene (n + 1)).world := by
  obtain ⟨use, huse, hf⟩ := h
  exact ⟨use, huse, (goes_of_use huse).does (usage.sound n).known hf⟩

/-- A step of a task, seen from the client. -/
theorem task_step {label : Label} {j : TaskId} (huse : usage.use? n = some (.client label))
    (hj : label.task? = some j) :
    ∃ mover events, (usage.scene n).world.machine.tasks[j]? = some mover ∧
      Step (usage.scene n).world.machine (some mover) (usage.scene (n + 1)).world.machine
        events := by
  have hgoes := goes_of_use huse
  generalize usage.scene (n + 1) = next at hgoes ⊢
  cases hgoes with
  | client _ htaken =>
    rcases World.step_cases htaken with ⟨order, rfl, -⟩ | ⟨i, mover, events, hi, hmover, hmoves⟩
    · cases hj
    · cases hj.symm.trans hi
      exact ⟨mover, events, hmover, hmoves⟩

/-- A step of a cancellation changes nothing about a batch but the flag and the registrations. -/
theorem spares_of_stopping {machine machine' : Machine} {id : Nat} {stage : StopStage}
    {events : Log} (h : Step machine (some (.stopping id stage)) machine' events) :
    machine.Spares machine' (.batch id) := by
  cases h with
  | stopping htasks hfound hmove =>
    refine ⟨_, _, hfound, List.getElem?_set_self (List.getElem?_eq_some_iff.mp hfound).1, ?_⟩
    cases hmove <;> rfl

/-- Whether something done for a future changes a call or batch. -/
inductive Touches (usage : Usage config) (f n : Nat) (template user : User) : Prop
  | spared (same : (usage.scene n).world.machine.Same (usage.scene (n + 1)).world.machine user) :
    Touches usage f n template user
  | clone (clone_eq : usage.clone? f n = some user) : Touches usage f n template user
  /-- The future was cancelled before its first poll, and so the batch is cancelled. -/
  | template (self : user = template) (recalled : usage.Recalled f (n + 1))
    (spares : (usage.scene n).world.machine.Spares (usage.scene (n + 1)).world.machine user) :
    Touches usage f n template user

/-- Whom a use of a future changes. -/
theorem Uses.touches (h : usage.Uses f n) (hmade : usage.Made f template)
    (hknown : (usage.scene n).world.machine.Has user) : usage.Touches f n template user := by
  obtain ⟨use, huse, hdoes⟩ := h.does
  generalize hworld : (usage.scene (n + 1)).world = world at hdoes
  cases hdoes with
  | nothing => exact .spared (hworld ▸ .refl _ _)
  | starts _ htaken => exact .spared (hworld ▸ htaken.same user hknown)
  | @stops _ future target _ hheld htarget htaken =>
    by_cases hself : user = target
    · subst hself
      rcases htarget with hclone | ⟨rfl, hidle, htemplate, id, rfl⟩
      · exact .clone ((clone?_eq hheld).trans hclone)
      · obtain ⟨batch, hbatch, hflagged⟩ := htaken.flagged id rfl
        refine .template (htemplate.symm.trans (hmade.template_eq hheld))
          ⟨n, Nat.lt_succ_self n, huse, unpolled_of_idle hheld hidle htemplate⟩ ?_
        rw [hworld]
        exact ⟨batch, _, hbatch, hflagged, rfl⟩
    · exact .spared (hworld ▸ htaken.same user hself)

/-- Whom a step of a task changes that is at work for a future. -/
theorem Tends.touches {label : Label} {j : TaskId} (h : usage.Tends f n j)
    (hmade : usage.Made f template) (huse : usage.use? n = some (.client label))
    (hj : label.task? = some j) (hknown : (usage.scene n).world.machine.Has user) :
    usage.Touches f n template user := by
  obtain ⟨mover, events, hmover, hmoves⟩ := task_step huse hj
  by_cases hself : mover.user = user
  · subst hself
    cases h.worksFor with
    | clone htask hheld hclone =>
      cases hmover.symm.trans htask
      exact .clone ((clone?_eq hheld).trans hclone)
    | template htask hheld htemplate hrecalled =>
      cases hmover.symm.trans htask
      exact .template (htemplate.symm.trans (hmade.template_eq hheld))
        (hrecalled.mono (Nat.le_succ n)) (spares_of_stopping hmoves)
  · exact .spared (hmoves.same hknown hself)

/-- **Whom something done for a future changes**: nobody, or its clone, or the batch that it was
made from, which is then cancelled because the future was cancelled before its first poll. -/
theorem Acts.touches (h : usage.Acts f n) (hmade : usage.Made f template)
    (hknown : (usage.scene n).world.machine.Has user) : usage.Touches f n template user := by
  rcases h with hused | ⟨label, j, huse, hj, htends⟩
  · exact hused.touches hmade hknown
  · exact htends.touches hmade huse hj hknown

/-- What a future was made from is there when something is done for the future. -/
theorem Acts.has_template (h : usage.Acts f n) (hmade : usage.Made f template) :
    (usage.scene n).world.machine.Has template := by
  have hold : ∀ {held : Held}, (usage.scene n).held[f]? = some held →
      (usage.scene n).world.machine.Has template :=
    fun hheld => hmade.template_eq hheld ▸ Usage.has_template hheld
  rcases h with ⟨use, huse, hf⟩ | ⟨label, j, -, -, htends⟩
  · cases use with
    | client => cases hf
    | adapt other =>
      have hgoes := goes_of_use huse
      generalize usage.scene (n + 1) = next at hgoes
      cases hgoes with
      | adapt hhas => exact hmade.unique huse (Option.some.inj hf) ▸ hhas
    | cancel g | poll g | drop g =>
      cases hf
      obtain ⟨future, hheld⟩ := held_of_use (f := f) huse (by simp)
      exact hold hheld
  · cases htends.worksFor with
    | clone _ hheld | template _ hheld => exact hold hheld

/-- **What a future was made from is not its clone.** -/
theorem Made.clone?_ne (h : usage.Made f template) : usage.clone? f n ≠ some template := by
  intro hclone
  obtain ⟨held, hheld, hself⟩ := Option.bind_eq_some_iff.mp hclone
  rw [← h.template_eq hheld] at hself
  exact (usage.sound n).apart held (List.mem_of_getElem? hheld) hself

theorem spares_of_same {machine machine' : Machine} (hknown : machine.Has template)
    (h : machine.Same machine' template) : machine.Spares machine' template := by
  cases template with
  | call => exact h
  | batch id =>
    have hlt : id < machine.batches.length := hknown
    have hfound := List.getElem?_eq_getElem hlt
    have hsame : machine'.batches[id]? = machine.batches[id]? := h
    exact ⟨_, _, hfound, hsame.trans hfound, rfl⟩

/-- **Futures keep their promises.** -/
theorem futures_keep_contract (hmade : usage.Made f template) : usage.Contract f template where
  cold _ hunpolled := hunpolled.cold
  quiet n hused := by
    obtain ⟨use, -, hdoes⟩ := hused.does
    exact hdoes.quiet
  forestalls _ hfirst hcalled := hfirst.forestalls hmade hcalled
  runs _ hfirst huncalled := by
    obtain ⟨i, clone, hruns⟩ := hfirst.runs hmade (.inr huncalled)
    exact ⟨i, clone, hruns.runsOnce huncalled⟩
  spent _ _ _ hresolves hnm huse := hresolves.spent hmade hnm huse
  apart n user hacts hknown hclone hrecalled := by
    cases hacts.touches hmade hknown with
    | spared hsame => exact hsame
    | clone hself => exact absurd hself hclone
    | template htemplate hrecalled' => exact absurd hrecalled' (hrecalled htemplate)
  spares n hacts := by
    have hknown := hacts.has_template hmade
    cases hacts.touches hmade hknown with
    | spared hsame => exact spares_of_same hknown hsame
    | clone hself => exact absurd hself hmade.clone?_ne
    | template _ _ hspares => exact hspares

end

/-! ## 6. Three futures -/

/-- What there is at each moment when these uses follow each other; one that is not possible does
not happen. -/
def course (config : Config) (uses : List Use) : Nat → Scene
  | 0 => .new config
  | n + 1 => (uses[n]?.bind (course config uses n).step).getD (course config uses n)

/-- These uses, and then no more. -/
def ofUses (config : Config) (uses : List Use) : Usage config where
  scene := course config uses
  use? n := uses[n]?.filter fun use => ((course config uses n).step use).isSome
  starts := rfl
  goes n := by
    cases huse : uses[n]? with
    | none => simp [course, huse]
    | some use =>
      cases hstep : (course config uses n).step use <;> simp [course, Option.filter, huse, hstep]

/-- A future of a call is awaited, another one of the same call is cancelled before it is polled,
and so is one of a batch. -/
def trio : List Use :=
  [.client (.order (.newCall ⟨"Ping", [7], none⟩ ⟨[], .string⟩)), .adapt (.call 0),
    .adapt (.call 0), .client (.order .newBatch),
    .client (.order (.addItem 0 ⟨"a", ⟨"Ping", [], none⟩, ⟨[], .string⟩⟩)), .adapt (.batch 0),
    .cancel 1, .cancel 2, .poll 1, .poll 0, .poll 2, .client (.advance 1), .client (.advance 1),
    .client (.advance 1), .client (.answer 1 .connected), .client (.advance 1),
    .client (.advance 1), .client (.answer 1 .sent), .client (.answer 1 (.failed (.io "reset"))),
    .client (.advance 1), .client (.advance 1), .client (.advance 1), .client (.advance 1),
    .poll 0, .poll 0, .client (.advance 2), .client (.advance 3), .client (.advance 2),
    .client (.advance 2), .client (.advance 2), .client (.advance 2), .poll 2]

/-- The first future resolves to the error of its exchange and is spent then, the others to that
they were cancelled. -/
theorem futures_keep_contract_trio : ∃ usage : Usage {},
    (usage.Made 0 (.call 0) ∧
      (usage.scene 23).answer? 0 = some (.call (.error (.io "reset"))) ∧
      (usage.scene 24).answer? 0 = some (.spent (.call 0)) ∧ usage.Contract 0 (.call 0)) ∧
    (usage.Made 1 (.call 0) ∧ (usage.scene 8).answer? 1 = some (.cancelled (.call 0)) ∧
      usage.Contract 1 (.call 0)) ∧
    (usage.Made 2 (.batch 0) ∧ (usage.scene 31).answer? 2 = some (.cancelled (.batch 0)) ∧
      usage.Contract 2 (.batch 0)) := by
  have hfirst : (ofUses {} trio).Made 0 (.call 0) := ⟨1, rfl, rfl⟩
  have hsecond : (ofUses {} trio).Made 1 (.call 0) := ⟨2, rfl, rfl⟩
  have hthird : (ofUses {} trio).Made 2 (.batch 0) := ⟨5, rfl, rfl⟩
  exact ⟨ofUses {} trio, ⟨hfirst, rfl, rfl, futures_keep_contract hfirst⟩,
    ⟨hsecond, rfl, futures_keep_contract hsecond⟩,
    ⟨hthird, rfl, futures_keep_contract hthird⟩⟩

end Usage

end RemoteCall.Client
