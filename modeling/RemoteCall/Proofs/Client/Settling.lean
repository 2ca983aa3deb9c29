/-
# A batch accounts for every item exactly once

`World.batch_accounts` is about every batch in every run, whatever the endpoint does and however the
steps of its workers, its leader, its cancellations and all other users interleave.  At any moment
what its user has been told accounts for the items; and in a `Run` that is fair to it, a batch that
was started comes to one terminal callback, with which all is said.
-/
import RemoteCall.Proofs.Client.Progress

namespace RemoteCall.Client

/-! ## 1. Endless runs -/

/-- An endless run: at each moment the client takes a step or rests. -/
structure Run (config : Config) where
  world : Nat → World
  label? : Nat → Option Label
  starts : world 0 = .new config
  goes : ∀ n, match label? n with
    | some label => (world n).step label = some (world (n + 1))
    | none => world (n + 1) = world n

namespace Run

variable {config : Config} (run : Run config) (id : Nat)

/-- A task that serves batch `id` takes a step at this moment. -/
def Serves (n : Nat) : Prop := ∃ label ∈ run.label? n, (run.world n).serves id label = true

/-- Whenever a task that serves the batch can take a step, one that serves it takes one then or
later. -/
def Fair : Prop := ∀ n, (run.world n).CanServe id → ∃ m, n ≤ m ∧ run.Serves id m

/-- No worker of the batch panics. -/
def Unharmed : Prop := ∀ n, .abandoned ∉ (run.world n).machine.workers id

/-- The batch is started at some moment. -/
def Started : Prop :=
  ∃ n batch, (run.world n).machine.batches[id]? = some batch ∧ batch.started = true

/-- The world at a moment of a run is reachable. -/
theorem reachable (n : Nat) : World.Reachable config (run.world n) := by
  induction n with
  | zero =>
    rw [run.starts]
    exact .new
  | succ n ih =>
    have hgoes := run.goes n
    cases hlabel : run.label? n with
    | none =>
      rw [hlabel] at hgoes
      rw [hgoes]
      exact ih
    | some label =>
      rw [hlabel] at hgoes
      exact .step ih hgoes

end Run

/-- The world after steps; none if one of them is not possible. -/
def World.after (world : World) : List Label → Option World
  | [] => some world
  | label :: labels => (world.step label).bind (·.after labels)

theorem World.after_append {world : World} {labels labels' : List Label} :
    world.after (labels ++ labels') = (world.after labels).bind (·.after labels') := by
  induction labels generalizing world with
  | nil => rfl
  | cons label labels ih =>
    simp only [List.cons_append, after, Option.bind_assoc, ih]

/-! ## 2. The way to the end -/

/-- A task that is over takes no step. -/
theorem Step.not_over {machine machine' : Machine} {task : Task} {events : List Event}
    (h : Step machine (some task) machine' events) : task.isOver = false := by
  cases h with
  | executing htasks hfound hmove => exact hmove.not_over
  | cancelling htasks hfound hmove => cases hmove <;> rfl
  | collecting htasks hfound hmove => exact hmove.not_over
  | working htasks hfound hmove => exact hmove.not_over
  | stopping htasks hfound hmove => cases hmove <;> rfl

/-- When every task is over nobody serves a batch. -/
theorem World.not_canServe {world : World} {id : Nat}
    (h : ∀ task ∈ world.machine.tasks, task.isOver = true) : ¬ world.CanServe id := by
  rintro ⟨label, hserves, htaken⟩
  obtain ⟨world', hworld'⟩ := Option.isSome_iff_exists.mp htaken
  obtain ⟨events, hstep, -⟩ := step_ok hworld'
  unfold serves at hserves
  cases hmover : label.task?.bind (world.machine.tasks[·]?) with
  | none =>
    rw [hmover] at hserves
    cases hserves
  | some task =>
    rw [hmover] at hstep
    obtain ⟨i, -, hi⟩ := Option.bind_eq_some_iff.mp hmover
    exact absurd ((h task (List.mem_of_getElem? hi)).symm.trans hstep.not_over) (by simp)

namespace Run

variable {config : Config} {run : Run config} {id n m : Nat} {batch : Batch}
  {collector : Collector} {workers : List WorkerStage}

/-- At this moment the batch is led by a collector. -/
structure Led (run : Run config) (id n : Nat) (batch : Batch) (collector : Collector)
    (workers : List WorkerStage) : Prop where
  team_eq : (run.world n).machine.team? id = some ⟨batch, [collector], workers⟩
  started : batch.started = true

/-- The next moment: nothing concerns the team or it takes a step. -/
theorem team_next {team : Team} (hteam : (run.world n).machine.team? id = some team) :
    ∃ team' events serving, (run.world (n + 1)).machine.team? id = some team' ∧
      (run.world (n + 1)).log = (run.world n).log ++ events ∧
      (run.Serves id n → serving = true) ∧
      ((team' = team ∧ events.callbacks id = [] ∧ events.answered id = [] ∧ serving = false) ∨
        TeamMove id (run.world n).machine.workerLimit (run.world n).machine.depth
          (run.world n).machine.config.acquireTimeoutMs team serving team' events) := by
  have hgoes := run.goes n
  cases hlabel : run.label? n with
  | none =>
    rw [hlabel] at hgoes
    have hserves : ¬ run.Serves id n := by
      rintro ⟨label, hmem, -⟩
      rw [hlabel] at hmem
      cases hmem
    refine ⟨team, [], false, ?_, ?_, fun h => absurd h hserves, .inl ⟨rfl, rfl, rfl, rfl⟩⟩
    · rw [hgoes]
      exact hteam
    · rw [hgoes, List.append_nil]
  | some label =>
    rw [hlabel] at hgoes
    obtain ⟨events, hstep, hlog⟩ := World.step_ok hgoes
    have htidy := ((run.reachable n).holds Team.InOrder.lasting).tidy
    obtain ⟨team', hteam', hfares⟩ := hstep.teamMove htidy hteam
    refine ⟨team', events, _, hteam', hlog, ?_, hfares⟩
    rintro ⟨label', hmem, hself⟩
    rw [hlabel] at hmem
    cases hmem
    exact hself

/-- A led batch stays led, and the effort shrinks whenever a task that serves it moves. -/
theorem Led.next (h : run.Led id n batch collector workers) :
    ∃ batch' collector' workers', run.Led id (n + 1) batch' collector' workers' ∧
      effortOf batch' collector' workers' ≤ effortOf batch collector workers ∧
      (run.Serves id n →
        effortOf batch' collector' workers' < effortOf batch collector workers) := by
  obtain ⟨team', events, serving, hteam', -, hserving, ⟨rfl, -, -, hidle⟩ | hstep⟩ :=
    team_next h.team_eq
  · refine ⟨_, _, _, ⟨hteam', h.started⟩, Nat.le_refl _, fun hserves => ?_⟩
    exact absurd ((hserving hserves).symm.trans hidle) (by simp)
  · have hstarted := hstep.started h.started
    obtain ⟨batch', collector', workers', rfl, hle⟩ := hstep.effort_le h.started
    refine ⟨batch', collector', workers', ⟨hteam', hstarted⟩, by omega, fun hserves => ?_⟩
    rw [hserving hserves, Bool.toNat_true] at hle
    exact hle

theorem Led.later (h : run.Led id n batch collector workers) (hm : n ≤ m) :
    ∃ batch' collector' workers', run.Led id m batch' collector' workers' ∧
      effortOf batch' collector' workers' ≤ effortOf batch collector workers := by
  induction hm with
  | refl => exact ⟨_, _, _, h, Nat.le_refl _⟩
  | step _ ih =>
    obtain ⟨_, _, _, hled, hle⟩ := ih
    obtain ⟨_, _, _, hled', hle', -⟩ := hled.next
    exact ⟨_, _, _, hled', Nat.le_trans hle' hle⟩

/-- What is known of a team at a moment of a run. -/
theorem Led.inOrder (h : run.Led id n batch collector workers) :
    Team.InOrder ⟨batch, [collector], workers⟩ ((run.world n).log.callbacks id) :=
  ((run.reachable n).holds Team.InOrder.lasting).teams id _ h.team_eq

/-- **The leader comes to its end.**  The induction is on the effort: until then somebody can move,
so somebody does. -/
theorem Led.eventually_over (hfair : run.Fair id) (h : run.Led id n batch collector workers) :
    ∃ m batch' collector' workers', run.Led id m batch' collector' workers' ∧
      collector'.isOver = true := by
  generalize heffort : effortOf batch collector workers = effort
  induction effort using Nat.strongRecOn generalizing n batch collector workers with
  | ind effort ih =>
    cases hover : collector.isOver with
    | true => exact ⟨n, _, _, _, h, hover⟩
    | false =>
      have horderly := h.inOrder.2 collector (List.mem_singleton_self collector)
      obtain ⟨m, hm, hserves⟩ := hfair n (World.able h.team_eq horderly hover)
      obtain ⟨_, _, _, hled, hle⟩ := h.later hm
      obtain ⟨_, _, _, hled', -, hlt⟩ := hled.next
      exact ih _ (heffort ▸ Nat.lt_of_lt_of_le (hlt hserves) hle) hled' rfl

/-- When the leader is over nothing more is told. -/
theorem Led.quiet (h : run.Led id n batch collector workers) (hover : collector.isOver = true)
    (hm : n ≤ m) :
    ∃ batch' workers', run.Led id m batch' collector workers' ∧
      (run.world m).log.callbacks id = (run.world n).log.callbacks id := by
  induction hm with
  | refl => exact ⟨_, _, h, rfl⟩
  | step _ ih =>
    obtain ⟨batch', workers', hled, hsame⟩ := ih
    obtain ⟨team', events, serving, hteam', hlog, -, hfares⟩ := team_next hled.team_eq
    rw [hlog, Log.callbacks_append, hsame]
    rcases hfares with ⟨rfl, huntold, -⟩ | hstep
    · exact ⟨_, _, ⟨hteam', hled.started⟩, by rw [huntold, List.append_nil]⟩
    · have hstarted := hstep.started hled.started
      cases hstep with
      | grow hallowed => exact ⟨_, _, ⟨hteam', hstarted⟩, List.append_nil _⟩
      | start before after hunstarted =>
        exact absurd (hled.started.symm.trans hunstarted) (by simp)
      | lead hself _ hmove =>
        obtain ⟨rfl, rfl, rfl⟩ := append_cons_eq_singleton hself.symm
        exact absurd (hover.symm.trans hmove.not_over) (by simp)
      | work hworkers hmove =>
        exact ⟨_, _, ⟨hteam', hstarted⟩, by rw [hmove.callbacks_eq, List.append_nil]⟩
      | stop hmove =>
        exact ⟨_, _, ⟨hteam', hstarted⟩, by rw [hmove.callbacks_eq, List.append_nil]⟩

/-- A batch that is started, or for which somebody works, is led. -/
theorem led_of_going (hbatch : (run.world n).machine.batches[id]? = some batch)
    (hgoing : batch.started = true ∨ (run.world n).machine.workers id ≠ []) :
    ∃ collector, run.Led id n batch collector ((run.world n).machine.workers id) := by
  obtain ⟨team, hteam, rfl, hworkers⟩ : ∃ team, (run.world n).machine.team? id = some team ∧
      team.batch = batch ∧ team.workers = (run.world n).machine.workers id :=
    ⟨_, Machine.team?_eq hbatch, rfl, (Machine.workers_eq _ _).symm⟩
  rw [← hworkers] at hgoing ⊢
  obtain ⟨hbalanced, -⟩ := ((run.reachable n).holds Team.InOrder.lasting).teams id _ hteam
  generalize (run.world n).log.callbacks id = callbacks at hbalanced
  cases hbalanced with
  | waiting _ hunstarted =>
    exact absurd (hgoing.resolve_right (· rfl)) (by simp [hunstarted])
  | running _ hstarted => exact ⟨_, hteam, hstarted⟩

/-- When the leader is over it has come to a result, unless a worker has panicked. -/
theorem Led.finished (h : run.Led id n batch collector workers) (hunharmed : run.Unharmed id)
    (hover : collector.isOver = true) : ∃ result, collector.stage = .finished (.ok result) := by
  obtain ⟨hbalanced, horderly⟩ := h.inOrder
  have hunabandoned : collector.stage ≠ .abandoned := by
    intro habandoned
    have hmem := (horderly collector (List.mem_singleton_self collector)).stricken habandoned
    obtain ⟨batch', -, hteam⟩ := Option.map_eq_some_iff.mp h.team_eq
    rw [← (Team.mk.inj hteam).2.2] at hmem
    exact hunharmed n hmem
  generalize (run.world n).log.callbacks id = callbacks at hbalanced
  cases hbalanced with
  | running hkeys _ hleads hledger =>
    obtain ⟨stage, completed, errors⟩ := collector
    cases stage with
    | finished result =>
      cases result with
      | ok result => exact ⟨result, rfl⟩
      | error error => cases hleads
    | abandoned => exact absurd rfl hunabandoned
    | _ => cases hover

/-- When the leader is over the batch has ended, unless a worker has panicked. -/
theorem Led.ended (h : run.Led id n batch collector workers) (hunharmed : run.Unharmed id)
    (hover : collector.isOver = true) :
    ∃ deliveries result, Accounts (keysOf batch.items) deliveries (some result) ∧
      (run.world n).log.callbacks id = callbacksOf deliveries (some result) := by
  obtain ⟨result, hfinished⟩ := h.finished hunharmed hover
  have hresult : collector.result? = some result := by rw [Collector.result?, hfinished]
  obtain ⟨hbalanced, -⟩ := h.inOrder
  generalize (run.world n).log.callbacks id = callbacks at hbalanced
  cases hbalanced with
  | @running _ _ _ deliveries hkeys _ hleads hledger =>
    have haccounts := hledger.accounts hkeys.keys_nodup
    rw [hresult] at haccounts ⊢
    exact ⟨deliveries, result, haccounts, rfl⟩

end Run

/-- **A batch accounts for every item exactly once.**  In every world that a client can come to,
what the user of a batch has been told is a list of deliveries, at the very end of it the terminal
callback if there is one, and they account for the items.  In a run that is fair to a batch which is
started and none of whose workers panics, the batch comes to its terminal callback, and nothing is
told afterwards. -/
theorem World.batch_accounts {config : Config} {id : Nat} :
    (∀ {world : World} {batch : Batch}, Reachable config world →
      world.machine.batches[id]? = some batch →
      ∃ deliveries result?, world.log.callbacks id = callbacksOf deliveries result? ∧
        Accounts (keysOf batch.items) deliveries result?) ∧
    ∀ run : Run config, run.Fair id → run.Unharmed id → run.Started id →
      ∃ n batch deliveries result, (run.world n).machine.batches[id]? = some batch ∧
        Accounts (keysOf batch.items) deliveries (some result) ∧
        ∀ m, n ≤ m → (run.world m).log.callbacks id = callbacksOf deliveries (some result) := by
  refine ⟨fun {world batch} hreachable hbatch => ?_, fun run hfair hunharmed hstarted => ?_⟩
  · exact ((hreachable.holds Team.Balanced.lasting).teams id _ (Machine.team?_eq hbatch)).accounts
  · obtain ⟨start, batch₀, hbatch₀, hstarted₀⟩ := hstarted
    obtain ⟨collector₀, hled₀⟩ := Run.led_of_going hbatch₀ (.inl hstarted₀)
    obtain ⟨n, batch, collector, workers, hled, hover⟩ := hled₀.eventually_over hfair
    obtain ⟨deliveries, result, haccounts, hcallbacks⟩ := hled.ended hunharmed hover
    obtain ⟨batch', hbatch, hteam⟩ := Option.map_eq_some_iff.mp hled.team_eq
    obtain rfl := (Team.mk.inj hteam).1
    refine ⟨n, batch', deliveries, result, hbatch, haccounts, fun m hm => ?_⟩
    obtain ⟨-, -, -, hsame⟩ := hled.quiet hover hm
    rw [hsame, hcallbacks]

/-! ## 3. A run of two workers -/

/-- The run of a list of labels, if it is possible; then the client rests. -/
def Run.ofLabels (config : Config) (labels : List Label)
    (h : ((World.new config).after labels).isSome = true) : Run config where
  world n := ((World.new config).after (labels.take n)).getD (.new config)
  label? n := labels[n]?
  starts := rfl
  goes n := by
    obtain ⟨last, hlast⟩ := Option.isSome_iff_exists.mp h
    cases hlabel : labels[n]? with
    | none =>
      have hn := List.getElem?_eq_none_iff.mp hlabel
      simp only [List.take_of_length_le hn, List.take_of_length_le (Nat.le_succ_of_le hn)]
    | some label =>
      have hsplit : labels = labels.take n ++ label :: labels.drop (n + 1) := by
        obtain ⟨hn, rfl⟩ := List.getElem?_eq_some_iff.mp hlabel
        rw [List.getElem_cons_drop, List.take_append_drop]
      rw [hsplit, World.after_append] at hlast
      obtain ⟨world, hworld, hrest⟩ := Option.bind_eq_some_iff.mp hlast
      obtain ⟨world', hworld', -⟩ := Option.bind_eq_some_iff.mp hrest
      have htake : labels.take (n + 1) = labels.take n ++ [label] := by
        rw [List.take_add_one, hlabel]
        rfl
      simp only [htake, World.after_append, hworld, Option.bind_some, World.after, hworld',
        Option.getD_some]

/-- From its last step on a run of labels rests. -/
theorem Run.world_ofLabels {config : Config} {labels : List Label}
    (h : ((World.new config).after labels).isSome = true) (n : Nat) :
    (ofLabels config labels h).world n =
      (ofLabels config labels h).world (min n labels.length) := by
  simp only [ofLabels]
  congr 2
  rw [List.take_eq_take_iff, Nat.min_assoc, Nat.min_self]

/-- What holds at every moment up to the last step of a run of labels holds always. -/
theorem Run.forall_ofLabels {config : Config} {labels : List Label} {P : World → Prop}
    (h : ((World.new config).after labels).isSome = true)
    (hall : ∀ n ≤ labels.length, P ((ofLabels config labels h).world n)) (n : Nat) :
    P ((ofLabels config labels h).world n) := by
  rw [world_ofLabels h n]
  exact hall _ (Nat.min_le_right _ _)

/-- A run that goes on until no task is left is fair, if its last step serves the batch. -/
theorem Run.fair_ofLabels {config : Config} {labels : List Label} {id : Nat}
    (h : ((World.new config).after labels).isSome = true)
    (hlast : (ofLabels config labels h).Serves id (labels.length - 1))
    (hover : ∀ task ∈ ((ofLabels config labels h).world labels.length).machine.tasks,
      task.isOver = true) : (ofLabels config labels h).Fair id := by
  intro n hable
  by_cases hn : n < labels.length
  · exact ⟨labels.length - 1, by omega, hlast⟩
  · rw [world_ofLabels h n, Nat.min_eq_right (Nat.le_of_not_lt hn)] at hable
    exact absurd hable (World.not_canServe hover)

/-- The first of two workers sends two requests ahead.  After its first response, which is cut short,
the second worker cannot send the request that is left. -/
def twoWorkers : List Label :=
  .order .newBatch :: ["a", "b", "c"].map (fun key =>
      .order (.addItem 0 ⟨key, ⟨"Ping", [], none⟩, ⟨[], .string⟩⟩)) ++
    [.order (.collect 0), .advance 0, .advance 0, .advance 1, .answer 1 .connected, .advance 1,
      .advance 1, .advance 1, .answer 1 .sent, .answer 1 .sent, .advance 2, .answer 2 .connected,
      .advance 2, .advance 2, .advance 2, .answer 1 (.received []), .advance 1,
      .answer 2 (.failed (.io "broken pipe")), .advance 2, .advance 2, .answer 1 (.received []),
      .advance 1, .advance 1, .advance 1, .advance 1] ++ List.replicate 13 (.advance 0)

theorem twoWorkers_possible : ((World.new { batchConnections := 2, pipelineDepth := 2 }).after
    twoWorkers).isSome = true := by decide

/-- Two workers share three items.  One of these is answered by an error of its own; then a send
fails, and with that the batch ends. -/
theorem World.batch_accounts_twoWorkers :
    ∃ run : Run { batchConnections := 2, pipelineDepth := 2 },
      run.Fair 0 ∧ run.Unharmed 0 ∧ run.Started 0 ∧
      ((run.world 20).machine.workers 0).length = 2 ∧
      (∃ error, (run.world 42).log.callbacks 0 =
        [.delivery (.itemError "a" error), .terminal (.failure (.io "broken pipe") [])]) ∧
      ∃ n batch deliveries result, (run.world n).machine.batches[0]? = some batch ∧
        Accounts (keysOf batch.items) deliveries (some result) ∧
        ∀ m, n ≤ m → (run.world m).log.callbacks 0 = callbacksOf deliveries (some result) := by
  have hfair : (Run.ofLabels _ twoWorkers twoWorkers_possible).Fair 0 := by
    refine Run.fair_ofLabels twoWorkers_possible ⟨.advance 0, by rfl, by decide⟩ ?_
    decide
  have hunharmed : (Run.ofLabels _ twoWorkers twoWorkers_possible).Unharmed 0 := by
    intro n hmem
    have hall : ∀ n ≤ twoWorkers.length, (((Run.ofLabels _ twoWorkers twoWorkers_possible).world
        n).machine.workers 0).all (!·.isAbandoned) = true := by decide
    rw [Run.world_ofLabels] at hmem
    have hself := List.all_eq_true.mp (hall _ (Nat.min_le_right _ _)) _ hmem
    exact absurd hself (by decide)
  have hstarted : (Run.ofLabels _ twoWorkers twoWorkers_possible).Started 0 := ⟨6, _, rfl, rfl⟩
  exact ⟨_, hfair, hunharmed, hstarted, rfl, ⟨_, rfl⟩,
    World.batch_accounts.2 _ hfair hunharmed hstarted⟩

end RemoteCall.Client
