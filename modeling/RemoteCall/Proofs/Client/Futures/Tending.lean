/-
# Who works for a future

A task keeps what it is there for: it goes on with the same call or batch in the same part
(`Task.origin`), and others come after it.  So the one task that a future starts for its clone stays
the only one that runs it (`Machine.Sole`), as long as nobody else is set to do so, and that is what
`Scene.permits` is for.

`Scene.Sound` says so of all futures at once, with what else holds at every moment of their use:
the client has come to where it is in a run, and what futures were made from is there.
-/
import RemoteCall.Proofs.Client.Afterwards
import RemoteCall.Proofs.Client.Futures.Scene
import RemoteCall.Proofs.Client.Life.Cloning
import RemoteCall.Proofs.Client.Session.Change

namespace RemoteCall.Client

/-! ## 1. What tasks are there for -/

/-- A task as it was when it began. -/
def Task.origin : Task → Task
  | executing id _ => executing id .entry
  | cancelling id _ => cancelling id .entry
  | collecting id _ => collecting id .new
  | working id _ => working id .acquiring
  | stopping id _ => stopping id .entry

/-- Whether the task runs the call or batch. -/
def Task.runs : User → Task → Bool
  | .call id, executing other _ => other == id
  | .batch id, collecting other _ => other == id
  | _, _ => false

/-- The tasks as they were when they began. -/
def Machine.origins (machine : Machine) : List Task := machine.tasks.map Task.origin

/-- The task that an order starts. -/
def Order.started? (batches : Nat) : Order → Option Task
  | execute id => some (.executing id .entry)
  | cancel id => some (.cancelling id .entry)
  | collect id => some (.collecting id .new)
  | enqueue id => some (.collecting id .launched)
  | poll _ => some (.collecting batches .launched)
  | stop id => some (.stopping id .entry)
  | newCall .. | cloneCall _ | newBatch | addItem .. | cloneBatch _ => none

/-- Task `i` runs the call or batch, and no other does. -/
structure Machine.Sole (machine : Machine) (user : User) (i : TaskId) : Prop where
  runs : ∃ task, machine.tasks[i]? = some task ∧ task.runs user = true
  alone : ∀ j task, machine.tasks[j]? = some task → task.runs user = true → j = i

section

variable {machine machine' : Machine} {mover task : Task} {order : Order} {events : Log}
  {user : User} {i : TaskId} {added : List Task}

@[simp] theorem Task.user_origin : task.origin.user = task.user := by cases task <;> rfl

@[simp] theorem Task.runs_origin : task.origin.runs user = task.runs user := by
  cases user <;> cases task <;> rfl

/-- Who runs a call or batch works for it. -/
theorem Task.user_of_runs (h : task.runs user = true) : task.user = user := by
  cases user <;> cases task <;> simp_all [runs, user]

@[simp] theorem User.runs_stopper {other : User} : other.stopper.runs user = false := by
  cases user <;> cases other <;> rfl

@[simp] theorem User.runs_runner {template : User} {clone : Nat} :
    (template.runner clone).runs (template.clone clone) = true := by
  cases template <;> simp [User.runner, User.clone, Task.runs]

theorem User.user_stopper : user.stopper.user = user := by cases user <;> rfl

theorem User.user_runner {template : User} {clone : Nat} :
    (template.runner clone).user = template.clone clone := by
  cases template <;> rfl

/-- What an order starts. -/
theorem Machine.obey_tasks (h : machine.obey order = some machine') :
    machine'.tasks = machine.tasks ++ (order.started? machine.batches.length).toList := by
  cases order with
  | newCall | newBatch =>
    cases h
    exact (List.append_nil _).symm
  | cloneCall | cloneBatch =>
    obtain ⟨_, -, rfl⟩ := Option.map_eq_some_iff.mp h
    exact (List.append_nil _).symm
  | execute | cancel | collect | stop =>
    obtain ⟨_, -, rfl⟩ := Option.map_eq_some_iff.mp h
    rfl
  | addItem id item =>
    obtain ⟨batch, -, h⟩ := Option.bind_eq_some_iff.mp h
    cases hfault : batch.addFault? item.key with
    | some fault => simp [hfault] at h
    | none =>
      simp only [hfault] at h
      cases h
      exact (List.append_nil _).symm
  | enqueue id =>
    simp only [obey, enqueue] at h
    cases hfound : machine.batches[id]? with
    | none => simp [hfound] at h
    | some batch =>
      simp only [hfound] at h
      split_ifs at h
      cases h
      rfl
  | poll id =>
    obtain ⟨batch, hfound, rfl⟩ := Option.map_eq_some_iff.mp h
    simp [BatchFuture.poll, BatchFuture.ofBatch, hfound, addBatch, spawn, Order.started?]

/-- **A task that moves stays there for what it was**, and hires nobody but workers. -/
theorem Step.origins_eq (h : Step machine (some mover) machine' events) :
    ∃ id hired, machine'.origins =
      machine.origins ++ List.replicate hired (.working id .acquiring) := by
  have hkept : ∀ {before after : List Task} {old new : Task},
      machine.tasks = before ++ old :: after →
      new.origin = old.origin → (before ++ new :: after).map Task.origin = machine.origins := by
    intro before after old new htasks hsame
    simp [Machine.origins, htasks, hsame]
  cases h with
  | executing htasks | cancelling htasks | working htasks | stopping htasks =>
    refine ⟨0, 0, ?_⟩
    rw [List.replicate_zero, List.append_nil]
    refine hkept htasks ?_
    rfl
  | @collecting before after id hired collector collector' batch batch' events htasks =>
    have hsame : (Task.collecting id collector').origin =
      (Task.collecting id collector).origin := rfl
    refine ⟨id, hired, ?_⟩
    rw [← hkept htasks hsame]
    simp [Machine.origins, Task.origin]

/-- A step is an order, or one of a task. -/
theorem World.step_cases {world next : World} {label : Label} (h : world.step label = some next) :
    (∃ order, label = .order order ∧ world.machine.obey order = some next.machine) ∨
      ∃ i mover events, label.task? = some i ∧ world.machine.tasks[i]? = some mover ∧
        Step world.machine (some mover) next.machine events := by
  have hturn : ∀ {i : TaskId} {machine : Machine} {effects : List Effect},
      label.task? = some i → world.machine.Turn i (machine, effects) →
      ∃ i mover events, label.task? = some i ∧ world.machine.tasks[i]? = some mover ∧
        Step world.machine (some mover) machine events := by
    intro i machine effects hlabel hturn
    obtain ⟨mover, events, hmover, hstep, -⟩ := hturn.step
    exact ⟨i, mover, events, hlabel, hmover, hstep⟩
  cases label with
  | order order =>
    obtain ⟨machine, hmachine, rfl⟩ := Option.map_eq_some_iff.mp h
    exact .inl ⟨order, rfl, hmachine⟩
  | advance i =>
    obtain ⟨⟨machine, effects⟩, hmachine, rfl⟩ := Option.map_eq_some_iff.mp h
    exact .inr (hturn rfl (.advanced hmachine))
  | expire i =>
    obtain ⟨⟨machine, effects⟩, hmachine, rfl⟩ := Option.map_eq_some_iff.mp h
    exact .inr (hturn rfl (.expired hmachine))
  | answer i answer =>
    obtain ⟨operation, hoperation, h⟩ := Option.bind_eq_some_iff.mp h
    obtain ⟨⟨machine, effects⟩, hmachine, rfl⟩ := Option.map_eq_some_iff.mp h
    exact .inr (hturn rfl (.answered hoperation hmachine))

/-- **Tasks stay what they are there for**, and those that come are workers or were ordered. -/
theorem World.step_origins {world next : World} {label : Label} (h : world.step label = some next) :
    ∃ added, next.machine.origins = world.machine.origins ++ added ∧
      ∀ task ∈ added, (∃ id, task = .working id .acquiring) ∨
        ∃ order started, label = .order order ∧
          order.started? world.machine.batches.length = some started ∧ task = started.origin := by
  rcases step_cases h with ⟨order, rfl, hobeyed⟩ | ⟨i, mover, events, -, -, hstep⟩
  · refine ⟨(order.started? world.machine.batches.length).toList.map Task.origin, ?_, ?_⟩
    · simp [Machine.origins, Machine.obey_tasks hobeyed]
    · intro task htask
      obtain ⟨started, hstarted, rfl⟩ := List.mem_map.mp htask
      exact .inr ⟨order, started, rfl, Option.mem_toList.mp hstarted, rfl⟩
  · obtain ⟨id, hired, horigins⟩ := hstep.origins_eq
    exact ⟨_, horigins, fun task htask => .inl ⟨id, List.eq_of_mem_replicate htask⟩⟩

/-- An order runs what it is for, or a clone of its own. -/
theorem Order.user_of_runs {batches : Nat} (hstarted : order.started? batches = some task)
    (hruns : task.runs user = true) : order.user? = some user ∨ user = .batch batches := by
  have huser := Task.user_of_runs hruns
  cases order with
  | newCall | cloneCall | newBatch | addItem | cloneBatch => cases hstarted
  | execute | cancel | collect | enqueue | stop =>
    cases hstarted
    exact .inl (congrArg some huser)
  | poll =>
    cases hstarted
    exact .inr huser.symm

/-- A task stays at its place when others come. -/
theorem Machine.task_of_origins (horigins : machine'.origins = machine.origins ++ added)
    (htask : machine.tasks[i]? = some task) :
    ∃ task', machine'.tasks[i]? = some task' ∧ task'.origin = task.origin := by
  have hold : machine.origins[i]? = some task.origin := by simp [origins, htask]
  have hnew : machine'.origins[i]? = some task.origin := by
    rw [horigins, List.getElem?_append_left (List.getElem?_eq_some_iff.mp hold).1, hold]
  simpa [origins] using hnew

/-- **Who alone runs a call or batch stays so**, when nobody comes who runs it. -/
theorem Machine.Sole.grow (h : machine.Sole user i)
    (horigins : machine'.origins = machine.origins ++ added)
    (hothers : ∀ task ∈ added, task.runs user = false) : machine'.Sole user i := by
  obtain ⟨task, htask, hruns⟩ := h.runs
  obtain ⟨task', htask', hsame⟩ := task_of_origins horigins htask
  refine ⟨⟨task', htask', ?_⟩, fun j other hother hruns' => ?_⟩
  · rw [← Task.runs_origin, hsame, Task.runs_origin, hruns]
  · have hnew : (machine.origins ++ added)[j]? = some other.origin := by
      rw [← horigins]
      simp [origins, hother]
    by_cases hj : j < machine.origins.length
    · rw [List.getElem?_append_left hj] at hnew
      obtain ⟨before, hbefore, hsame'⟩ := by simpa [origins] using hnew
      refine h.alone j before hbefore ?_
      rw [← Task.runs_origin, hsame', Task.runs_origin, hruns']
    · rw [List.getElem?_append_right (Nat.le_of_not_lt hj)] at hnew
      have hnone := hothers _ (List.mem_of_getElem? hnew)
      rw [Task.runs_origin, hruns'] at hnone
      cases hnone

/-- **Somebody else's task leaves a call or batch as it is.** -/
theorem Step.same (h : Step machine (some mover) machine' events) (hknown : machine.Has user)
    (hother : mover.user ≠ user) : machine.Same machine' user := by
  cases user with
  | call id =>
    have hlt : id < machine.calls.length := hknown
    have hfound := List.getElem?_eq_getElem hlt
    have hcall : mover.call? ≠ some id :=
      fun hcall => hother (by cases mover <;> cases hcall <;> rfl)
    exact (h.apart (by simpa using hcall) hfound).trans hfound.symm
  | batch id => exact (h.leaves hother).1

end

/-! ## 2. What a use does -/

section

variable {machine machine' : Machine} {world next : World} {scene : Scene} {use : Use}
  {user other : User} {f : Nat}

/-- Somebody has begun to cancel the call or batch. -/
structure World.Stops (world : World) (user : User) (next : World) : Prop where
  log_eq : next.log = world.log
  pool_eq : next.machine.pool = world.machine.pool
  origins_eq : next.machine.origins = world.machine.origins ++ [user.stopper]
  same : ∀ other, other ≠ user → world.machine.Same next.machine other
  flagged : ∀ id, user = .batch id → ∃ batch, world.machine.batches[id]? = some batch ∧
    next.machine.batches[id]? = some { batch with cancelled := true }

/-- **Who cancels starts one task**, which marks a batch at once and leaves everybody else alone. -/
theorem World.starting_ok (h : world.starting (some user.stopper) = some next) :
    world.Stops user next := by
  have hapart : ∀ {id other : Nat}, User.call other ≠ .call id → id ≠ other :=
    fun hne heq => hne (heq ▸ rfl)
  have hapart' : ∀ {id other : Nat}, User.batch other ≠ .batch id → id ≠ other :=
    fun hne heq => hne (heq ▸ rfl)
  cases user with
  | call id =>
    rw [starting_call] at h
    obtain ⟨call, hfound, rfl⟩ := Option.map_eq_some_iff.mp h
    refine ⟨rfl, rfl, ?_, fun other hother => ?_, fun id huser => by cases huser⟩
    · simp [Machine.origins, Task.origin, User.stopper]
    · cases other with
      | call => exact List.getElem?_set_ne (hapart hother)
      | batch => rfl
  | batch id =>
    rw [starting_batch] at h
    obtain ⟨batch, hfound, rfl⟩ := Option.map_eq_some_iff.mp h
    refine ⟨rfl, rfl, ?_, fun other hother => ?_, fun id' huser => ?_⟩
    · simp [Machine.origins, Task.origin, User.stopper]
    · cases other with
      | call => rfl
      | batch => exact List.getElem?_set_ne (hapart' hother)
    · cases huser
      exact ⟨batch, hfound, List.getElem?_set_self (List.getElem?_eq_some_iff.mp hfound).1⟩

/-- What a use of future `f` does to the client. -/
inductive Scene.Does (scene : Scene) (f : Nat) : Use → World → Prop
  | nothing {use : Use} : Does scene f use scene.world
  | stops {use : Use} {future : Future} {user : User} {next : World}
    (found : scene.held[f]? = some ⟨future, false⟩)
    (target : future.clone? = some user ∨ use = .cancel f ∧ future.running = none ∧
      future.template = user ∧ ∃ id, user = .batch id)
    (taken : scene.world.Stops user next) : Does scene f use next
  | starts {future : Future} {clone : Nat} {machine' : Machine}
    (found : scene.held[f]? = some ⟨future, false⟩)
    (taken : future.Starts scene.world.machine clone machine') :
    Does scene f (.poll f) ⟨machine', scene.world.log⟩

theorem Scene.Does.of_starting {future : Future} {user? : Option User}
    (hfound : scene.held[f]? = some ⟨future, false⟩)
    (htarget : ∀ user, user? = some user → future.clone? = some user ∨ use = .cancel f ∧
      future.running = none ∧ future.template = user ∧ ∃ id, user = .batch id)
    (h : scene.world.starting (user?.map User.stopper) = some next) : scene.Does f use next := by
  cases user? with
  | none =>
    cases h
    exact .nothing
  | some user => exact .stops hfound (htarget user rfl) (World.starting_ok h)

/-- **A use of a future does one of these things.** -/
theorem Scene.Goes.does {next : Scene} (hknown : scene.Known) (h : scene.Goes use next)
    (hused : scene.used? use = some f) : scene.Does f use next.world := by
  cases h with
  | client => cases hused
  | adapt => exact .nothing
  | cancel hfound htaken =>
    cases hused
    exact .of_starting hfound
      (fun _ huser => (Future.target_cases huser).imp_right fun hrest => ⟨rfl, hrest⟩) htaken
  | poll hfound =>
    cases hused
    have hhas := hknown _ (List.mem_of_getElem? hfound)
    rcases Future.poll_cases hhas with ⟨hsame, -⟩ | ⟨clone, machine', hstarts⟩
    · simp only [hsame]
      exact .nothing
    · simp only [hstarts.poll_eq]
      exact .starts hfound hstarts
  | drop hfound htaken =>
    cases hused
    exact .of_starting hfound (fun _ huser => .inl (Future.clone_of_deserts huser)) htaken

/-- **Using a future sends nothing**: what is logged and the pool stay as they are. -/
theorem Scene.Does.quiet (h : scene.Does f use next) :
    next.log = scene.world.log ∧ next.machine.pool = scene.world.machine.pool := by
  cases h with
  | nothing => exact ⟨rfl, rfl⟩
  | stops hfound htarget htaken => exact ⟨htaken.log_eq, htaken.pool_eq⟩
  | starts hfound htaken => exact ⟨rfl, htaken.pool_eq⟩

/-- Who comes for a future runs its clone or cancels. -/
theorem Scene.Does.origins_eq (h : scene.Does f use next) :
    ∃ added, next.machine.origins = scene.world.machine.origins ++ added ∧
      ∀ task ∈ added, ∀ user, scene.world.machine.Has user → task.runs user = false := by
  cases h with
  | nothing => exact ⟨[], (List.append_nil _).symm, by simp⟩
  | stops hfound htarget htaken => exact ⟨_, htaken.origins_eq, by simp⟩
  | @starts future clone machine' hfound htaken =>
    refine ⟨[(future.template.runner clone).origin], ?_, fun task htask user hhas => ?_⟩
    · simp [Machine.origins, htaken.tasks_eq]
    · obtain rfl := List.mem_singleton.mp htask
      rw [Task.runs_origin]
      refine Bool.eq_false_iff.mpr fun hruns => htaken.fresh ?_
      rw [← User.user_runner, Task.user_of_runs hruns]
      exact hhas

end

/-! ## 3. Every moment -/

section

variable {config : Config} {machine : Machine} {world next : World} {labels : List Label}
  {user : User} {task : Task} {f : Nat} {held held' : Held} {use? : Option Use}

theorem World.Reachable.after (h : Reachable config world)
    (hafter : world.after labels = some next) :
    Reachable config next := by
  induction labels generalizing world with
  | nil =>
    cases hafter
    exact h
  | cons label labels ih =>
    obtain ⟨world', htaken, hrest⟩ := Option.bind_eq_some_iff.mp hafter
    exact ih (h.step htaken) hrest

/-- What there is stays. -/
theorem Machine.Has.after (h : world.machine.Has user) (hafter : world.after labels = some next) :
    next.machine.Has user := by
  induction labels generalizing world with
  | nil =>
    cases hafter
    exact h
  | cons label labels ih =>
    obtain ⟨world', htaken, hrest⟩ := Option.bind_eq_some_iff.mp hafter
    obtain ⟨events, hstep, -⟩ := World.step_ok htaken
    refine ih ?_ hrest
    cases user with
    | call => exact Nat.lt_of_lt_of_le h hstep.calls_length_le
    | batch => exact Nat.lt_of_lt_of_le h hstep.batches_length_le

/-- Who looks cancelled looks so from then on. -/
theorem Machine.looksCancelled_after (h : world.machine.looksCancelled user = true)
    (hafter : world.after labels = some next) : next.machine.looksCancelled user = true := by
  induction labels generalizing world with
  | nil =>
    cases hafter
    exact h
  | cons label labels ih =>
    obtain ⟨world', htaken, hrest⟩ := Option.bind_eq_some_iff.mp hafter
    obtain ⟨events, hstep, -⟩ := World.step_ok htaken
    refine ih ?_ hrest
    cases user with
    | call id =>
      have hle := hstep.isCancelled_le id
      rw [show world.machine.isCancelled id = true from h] at hle
      exact Bool.toNat_eq_one.mp (Nat.le_antisymm (Bool.toNat_le _) hle)
    | batch id =>
      have hid : id < world.machine.batches.length := by
        by_contra hid
        simp [looksCancelled, List.getElem?_eq_none (Nat.le_of_not_lt hid)] at h
      rw [hstep.looksCancelled_batch hid, h, Bool.true_or]

/-- Tasks run what there is. -/
theorem World.Reachable.has_of_runs (h : Reachable config world)
    (htask : task ∈ world.machine.tasks) (hruns : task.runs user = true) :
    world.machine.Has user := by
  have huser := Task.user_of_runs hruns
  cases task with
  | executing id =>
    cases huser
    exact h.marked.known _ htask id rfl
  | collecting id =>
    cases huser
    exact ((h.holds Team.Balanced.lasting).tidy _ htask).1
  | cancelling | working | stopping => cases user <;> cases hruns

/-- A future stays one of what it was made from. -/
theorem Held.Becomes.template_eq (hhas : machine.Has held.future.template)
    (h : held.Becomes machine f use? held') : held'.future.template = held.future.template := by
  cases h with
  | kept | dropped => rfl
  | cancelled => exact Future.template_cancel
  | polled => exact Future.template_poll hhas

/-- **A future goes on with what it runs**, or it is polled for the first time and starts a clone.
-/
theorem Held.Becomes.running_cases (hhas : machine.Has held.future.template)
    (h : held.Becomes machine f use? held') :
    held'.future.running = held.future.running ∨
      use? = some (.poll f) ∧ held.dropped = false ∧ ∃ clone machine',
        held.future.Starts machine clone machine' ∧
          held' = ⟨held.future.start machine.tasks.length clone, false⟩ := by
  cases h with
  | kept | dropped => exact .inl rfl
  | cancelled => exact .inl Future.running_cancel
  | polled hundropped =>
    rcases Future.poll_cases hhas with ⟨-, hsame⟩ | ⟨clone, machine', hstarts⟩
    · exact .inl hsame
    · exact .inr ⟨rfl, hundropped, clone, machine', hstarts, by rw [hstarts.poll_eq]⟩

/-- What runs goes on. -/
theorem Held.Becomes.running_eq {running : TaskId × Nat} (hhas : machine.Has held.future.template)
    (h : held.Becomes machine f use? held') (hrunning : held.future.running = some running) :
    held'.future.running = some running := by
  rcases h.running_cases hhas with hsame | ⟨-, -, clone, machine', hstarts, -⟩
  · rw [hsame, hrunning]
  · cases hstarts.unpolled.symm.trans hrunning

/-- What a future notes of being cancelled it does not forget. -/
theorem Held.Becomes.flagged_eq (hhas : machine.Has held.future.template)
    (h : held.Becomes machine f use? held') (hflagged : held.future.flagged = true) :
    held'.future.flagged = true := by
  cases h with
  | kept | dropped => exact hflagged
  | cancelled => exact Future.flagged_cancel_of hflagged
  | polled => rw [Future.flagged_poll hhas, hflagged]

/-- What has resolved stays resolved. -/
theorem Held.Becomes.finished_eq (hhas : machine.Has held.future.template)
    (h : held.Becomes machine f use? held') (hfinished : held.future.finished = true) :
    held'.future.finished = true := by
  cases h with
  | kept | dropped => exact hfinished
  | cancelled => exact Future.finished_cancel.trans hfinished
  | polled => rw [Future.finished_poll hhas, hfinished, Bool.true_or]

end

namespace Scene

variable {config : Config} {scene next : Scene} {use : Use} {user : User} {f : Nat}

/-- What holds of futures and their client at every moment. -/
structure Sound (config : Config) (scene : Scene) : Prop where
  reachable : World.Reachable config scene.world
  known : scene.Known
  /-- The task that a future runs is the only one that runs the clone. -/
  sole : ∀ held ∈ scene.held, ∀ i clone, held.future.running = some (i, clone) →
    scene.world.machine.Has (held.future.template.clone clone) ∧
      scene.world.machine.Sole (held.future.template.clone clone) i
  /-- Every future runs a clone of its own. -/
  own : ∀ (f g : Nat) held held' user, scene.held[f]? = some held → scene.held[g]? = some held' →
    held.future.clone? = some user → held'.future.clone? = some user → f = g
  apart : ∀ held ∈ scene.held, held.future.clone? ≠ some held.future.template

theorem Sound.new (config : Config) : (Scene.new config).Sound config :=
  ⟨.new, by simp [Known, Scene.new], by simp [Scene.new], by simp [Scene.new], by simp [Scene.new]⟩

/-- Nobody comes who runs what a future runs. -/
theorem Sound.origins_eq (hsound : scene.Sound config) (h : scene.Goes use next) :
    ∃ added, next.world.machine.origins = scene.world.machine.origins ++ added ∧
      ∀ task ∈ added, ∀ user, scene.owns user = true → scene.world.machine.Has user →
        task.runs user = false := by
  cases hused : scene.used? use with
  | some f =>
    obtain ⟨added, horigins, hothers⟩ := (h.does hsound.known hused).origins_eq
    exact ⟨added, horigins, fun task htask user _ => hothers task htask user⟩
  | none =>
    cases h with
    | client hpermits htaken =>
      obtain ⟨added, horigins, hothers⟩ := World.step_origins htaken
      refine ⟨added, horigins, fun task htask user howns hhas => ?_⟩
      refine Bool.eq_false_iff.mpr fun hruns => ?_
      rcases hothers task htask with ⟨id, rfl⟩ | ⟨order, started, rfl, hstarted, rfl⟩
      · cases user <;> cases hruns
      · rw [Task.runs_origin] at hruns
        rcases Order.user_of_runs hstarted hruns with huser | rfl
        · simp [permits, huser, howns] at hpermits
        · exact Nat.lt_irrefl _ hhas
    | _ => cases hused

/-- What a poll leaves behind. -/
theorem Goes.of_poll {future : Future} (h : scene.Goes (.poll f) next)
    (hheld : scene.held[f]? = some ⟨future, false⟩) :
    next = ⟨⟨(future.poll scene.world.machine).2.2, scene.world.log⟩,
      scene.held.set f ⟨(future.poll scene.world.machine).2.1, false⟩⟩ := by
  cases h with
  | poll hfound =>
    cases hheld.symm.trans hfound
    rfl

/-- What a future was made from stays there. -/
theorem Sound.known_step (hsound : scene.Sound config) (h : scene.Goes use next) :
    next.Known := by
  have hafter := after_labels hsound.known h
  intro held' hmem
  obtain ⟨f, hheld'⟩ := List.mem_iff_getElem?.mp hmem
  rcases h.held hheld' with ⟨held, hheld, hbecomes⟩ | ⟨template, rfl, -, rfl⟩
  · have hhas := hsound.known held (List.mem_of_getElem? hheld)
    exact hbecomes.template_eq hhas ▸ hhas.after hafter
  · cases h with
    | adapt hhas => simpa using hhas

/-- Task `i` has just been started to run a clone that was not there before. -/
structure Begun (scene next : Scene) (template : User) (i : TaskId) (clone : Nat) : Prop where
  fresh : ¬ scene.world.machine.Has (template.clone clone)
  template_known : scene.world.machine.Has template
  known : next.world.machine.Has (template.clone clone)
  task_eq : i = scene.world.machine.tasks.length
  tasks_eq : next.world.machine.tasks = scene.world.machine.tasks ++ [template.runner clone]

/-- **What a future runs** it ran before, or it has just been polled for the first time. -/
theorem Sound.running_step (hsound : scene.Sound config) (h : scene.Goes use next)
    {held' : Held} {i : TaskId} {clone : Nat} (hheld' : next.held[f]? = some held')
    (hrunning : held'.future.running = some (i, clone)) :
    (∃ held, scene.held[f]? = some held ∧ held.future.running = some (i, clone) ∧
      held.future.template = held'.future.template) ∨
    use = .poll f ∧ scene.Begun next held'.future.template i clone := by
  rcases h.held hheld' with ⟨held, hheld, hbecomes⟩ | ⟨template, rfl, -, rfl⟩
  · have hhas := hsound.known held (List.mem_of_getElem? hheld)
    have htemplate := hbecomes.template_eq hhas
    rcases hbecomes.running_cases hhas with hsame | ⟨huse, hundropped, new, machine', hstarts, rfl⟩
    · exact .inl ⟨held, hheld, hsame ▸ hrunning, htemplate.symm⟩
    · cases huse
      obtain ⟨rfl, rfl⟩ : scene.world.machine.tasks.length = i ∧ new = clone := by
        simpa using hrunning
      have hworld := congrArg Scene.world (h.of_poll (by rw [hheld, ← hundropped]))
      rw [hstarts.poll_eq] at hworld
      rw [htemplate]
      exact .inr ⟨rfl, hstarts.fresh, hhas, hworld ▸ hstarts.known, rfl, hworld ▸ hstarts.tasks_eq⟩
  · simp at hrunning

/-- Who has just been started for a fresh clone runs it alone. -/
theorem Sound.sole_of_begun (hsound : scene.Sound config) {template : User} {i : TaskId}
    {clone : Nat} (h : scene.Begun next template i clone) :
    next.world.machine.Sole (template.clone clone) i := by
  refine ⟨⟨template.runner clone, ?_, User.runs_runner⟩, fun j task htask hruns => ?_⟩
  · rw [h.tasks_eq, h.task_eq]
    simp
  · rw [h.tasks_eq] at htask
    rcases getElem?_of_append_singleton htask with hold | ⟨hj, -⟩
    · exact absurd (hsound.reachable.has_of_runs (List.mem_of_getElem? hold) hruns) h.fresh
    · exact hj.trans h.task_eq.symm

/-- **Every use keeps futures sound.** -/
theorem Sound.step (hsound : scene.Sound config) (h : scene.Goes use next) :
    next.Sound config := by
  have hafter := after_labels hsound.known h
  obtain ⟨added, horigins, hothers⟩ := hsound.origins_eq h
  refine ⟨hsound.reachable.after hafter, hsound.known_step h, fun held' hmem i clone hrunning => ?_,
    fun f g held held' user hheld hheld' hclone hclone' => ?_, fun held' hmem hclone => ?_⟩
  · obtain ⟨f, hheld'⟩ := List.mem_iff_getElem?.mp hmem
    rcases hsound.running_step h hheld' hrunning with ⟨held, hheld, hbefore, htemplate⟩ |
      ⟨-, hbegun⟩
    · have hmem' := List.mem_of_getElem? hheld
      obtain ⟨hhas, hsole⟩ := hsound.sole held hmem' i clone hbefore
      have howns : scene.owns (held.future.template.clone clone) = true :=
        List.any_eq_true.mpr ⟨held, hmem', by simp [Future.clone?_eq hbefore]⟩
      rw [← htemplate]
      exact ⟨hhas.after hafter,
        hsole.grow horigins fun task htask => hothers task htask _ howns hhas⟩
    · exact ⟨hbegun.known, hsound.sole_of_begun hbegun⟩
  · obtain ⟨i, clone, hrunning, rfl⟩ := Future.clone?_eq_some.mp hclone
    obtain ⟨j, clone', hrunning', hsame⟩ := Future.clone?_eq_some.mp hclone'
    have hold : ∀ {g : Nat} {held : Held} {i : TaskId} {clone : Nat}, scene.held[g]? = some held →
        held.future.running = some (i, clone) →
        scene.world.machine.Has (held.future.template.clone clone) :=
      fun hheld hrunning => (hsound.sole _ (List.mem_of_getElem? hheld) _ _ hrunning).1
    rcases hsound.running_step h hheld hrunning with ⟨held₀, hheld₀, hrunning₀, htemplate₀⟩ |
      ⟨huse, hbegun⟩ <;>
    rcases hsound.running_step h hheld' hrunning' with ⟨held₁, hheld₁, hrunning₁, htemplate₁⟩ |
      ⟨huse', hbegun'⟩
    · refine hsound.own f g held₀ held₁ _ hheld₀ hheld₁ (Future.clone?_eq hrunning₀) ?_
      rw [Future.clone?_eq hrunning₁, htemplate₁, htemplate₀]
      exact congrArg some hsame
    · exact absurd (htemplate₀ ▸ hold hheld₀ hrunning₀) (hsame ▸ hbegun'.fresh)
    · exact absurd (hsame ▸ htemplate₁ ▸ hold hheld₁ hrunning₁) hbegun.fresh
    · cases huse.symm.trans huse'
      rfl
  · obtain ⟨f, hheld'⟩ := List.mem_iff_getElem?.mp hmem
    obtain ⟨i, clone, hrunning, hself⟩ := Future.clone?_eq_some.mp hclone
    rcases hsound.running_step h hheld' hrunning with ⟨held, hheld, hbefore, htemplate⟩ |
      ⟨-, hbegun⟩
    · refine hsound.apart held (List.mem_of_getElem? hheld) ?_
      rw [Future.clone?_eq hbefore, htemplate, hself]
    · exact hbegun.fresh (hself.symm ▸ hbegun.template_known)

end Scene

/-! ## 4. The run of the client -/

namespace Usage

variable {config : Config} (usage : Usage config) (n : Nat)

/-- **Futures in use are sound at every moment.** -/
theorem sound : (usage.scene n).Sound config := by
  induction n with
  | zero =>
    rw [usage.starts]
    exact .new config
  | succ n ih =>
    rcases usage.next n with ⟨-, hsame⟩ | ⟨use, -, hstep⟩
    · exact hsame ▸ ih
    · exact ih.step hstep

/-- The steps that the client takes while a moment of use passes. -/
def labels : List Label := ((usage.use? n).map (usage.scene n).labels).getD []

theorem after_labels :
    (usage.scene n).world.after (usage.labels n) = some (usage.scene (n + 1)).world := by
  rcases usage.next n with ⟨huse, hsame⟩ | ⟨use, huse, hstep⟩
  · rw [labels, huse, hsame]
    rfl
  · rw [labels, huse]
    exact Scene.after_labels (usage.sound n).known hstep

theorem length_labels_le : (usage.labels n).length ≤ 2 := by
  unfold labels
  cases usage.use? n with
  | none => simp
  | some use => exact Scene.length_labels_le

/-- The run that the client goes through, with two moments for each moment of use. -/
def run : Run config where
  world k := ((usage.scene (k / 2)).world.after ((usage.labels (k / 2)).take (k % 2))).getD
    (usage.scene (k / 2)).world
  label? k := (usage.labels (k / 2))[k % 2]?
  starts := by simp [usage.starts, World.after, Scene.new]
  goes k := by
    obtain ⟨n, hk⟩ : ∃ n, k = 2 * n ∨ k = 2 * n + 1 := ⟨k / 2, by omega⟩
    have hafter := usage.after_labels n
    have hlength := usage.length_labels_le n
    rcases hk with rfl | rfl
    · have hhalf : 2 * n / 2 = n ∧ 2 * n % 2 = 0 ∧ (2 * n + 1) / 2 = n ∧ (2 * n + 1) % 2 = 1 := by
        omega
      simp only [hhalf]
      cases hlabels : usage.labels n with
      | nil => rfl
      | cons first rest =>
        rw [hlabels] at hafter
        obtain ⟨world, hworld, -⟩ := Option.bind_eq_some_iff.mp hafter
        simp [World.after, hworld]
    · have hhalf : (2 * n + 1) / 2 = n ∧ (2 * n + 1) % 2 = 1 ∧
          (2 * n + 1 + 1) / 2 = n + 1 ∧ (2 * n + 1 + 1) % 2 = 0 := by omega
      simp only [hhalf]
      cases hlabels : usage.labels n with
      | nil =>
        rw [hlabels] at hafter
        simpa [World.after] using (Option.some.inj hafter).symm
      | cons first rest =>
        rw [hlabels] at hafter hlength
        obtain ⟨world, hworld, hrest⟩ := Option.bind_eq_some_iff.mp hafter
        cases rest with
        | nil =>
          obtain rfl := Option.some.inj hrest
          simp [World.after, hworld]
        | cons second rest =>
          obtain rfl := List.length_eq_zero_iff.mp (Nat.le_zero.mp (by simpa using hlength))
          obtain ⟨world', hworld', hdone⟩ := Option.bind_eq_some_iff.mp hrest
          obtain rfl := Option.some.inj hdone
          simp [World.after, hworld, hworld']

/-- The client is where its run is. -/
theorem run_world : usage.run.world (2 * n) = (usage.scene n).world := by
  have hhalf : 2 * n / 2 = n ∧ 2 * n % 2 = 0 := by omega
  simp [run, hhalf, World.after]

end Usage

end RemoteCall.Client
