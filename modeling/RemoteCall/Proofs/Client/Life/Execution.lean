/-
# The first execution of a call, and the others

A call is executed once.  Of its executions the first to begin goes through the exchange, and what
it returns is read off from what it has asked of the endpoint and from the phase of the call
(`Call.Ends`); the others are refused in their only step, and nothing comes of them
(`Run.Begins.refused`).  Every execution comes to its end, if it gets its turns
(`Run.FairTo.over`), for each step takes something from its `effort`.

The invariant of the first execution (`World.Leads`) says of each stage which operations lie behind
it (`CallStage.Tells`).
-/
import RemoteCall.Proofs.Client.Life.Steps
import RemoteCall.Proofs.Message.Response

namespace RemoteCall.Client

/-! ## 1. Exchanges -/

/-- A connection is come by: an idle one is taken, or a new one is opened. -/
def Opens (operations : List (Operation × Answer)) : Prop :=
  operations = [] ∨ operations = [(.connect, .connected)]

/-- The exchange of one request: what the endpoint is asked, with its answers, and what comes of
it. -/
inductive Exchange (request : Bytes) (timeoutMs : Nat) :
    List (Operation × Answer) → Except Error Bytes → Prop
  /-- No connection was free in time. -/
  | timedOut : Exchange request timeoutMs [] (.error (.poolTimeout timeoutMs))
  | unconnected {error : Error} :
    Exchange request timeoutMs [(.connect, .failed error)] (.error error)
  | unsent {opening : List (Operation × Answer)} {conn : ConnId} {error : Error}
    (opens : Opens opening) :
    Exchange request timeoutMs (opening ++ [(.send conn request, .failed error)]) (.error error)
  | unanswered {opening : List (Operation × Answer)} {conn : ConnId} {error : Error}
    (opens : Opens opening) :
    Exchange request timeoutMs
      (opening ++ [(.send conn request, .sent), (.receive conn, .failed error)]) (.error error)
  | answered {opening : List (Operation × Answer)} {conn : ConnId} {frame : Bytes}
    (opens : Opens opening) :
    Exchange request timeoutMs
      (opening ++ [(.send conn request, .sent), (.receive conn, .received frame)]) (.ok frame)

/-- How the execution of a call ends: it was cancelled, or it gives what its own exchange gives. -/
inductive Call.Ends (call : Call) (timeoutMs : Nat) (operations : List (Operation × Answer)) :
    Except Error Datum → Prop
  | cancelled (won : call.phase = .cancelled) : Ends call timeoutMs operations (.error .cancelled)
  | completed (won : call.phase = .completed) {outcome : Except Error Bytes}
    (exchange : Exchange call.request.frame timeoutMs operations outcome) :
    Ends call timeoutMs operations (outcome >>= Response.decodeWith call.decoder)

/-- An exchange fails with an answer of the endpoint, or because of the pool. -/
theorem Exchange.error_cases {request : Bytes} {timeoutMs : Nat}
    {operations : List (Operation × Answer)} {error : Error}
    (h : Exchange request timeoutMs operations (.error error)) :
    error = .poolTimeout timeoutMs ∨ ∃ operation, (operation, .failed error) ∈ operations := by
  cases h with
  | timedOut => exact .inl rfl
  | unconnected => exact .inr ⟨_, List.mem_singleton_self _⟩
  | unsent => exact .inr ⟨_, List.mem_append_right _ (List.mem_singleton_self _)⟩
  | unanswered =>
    exact .inr ⟨_, List.mem_append_right _ (List.mem_cons_of_mem _ (List.mem_singleton_self _))⟩

/-- A call that completes ends with what its exchange gives. -/
theorem Exchange.ends {call : Call} {timeoutMs : Nat} {operations : List (Operation × Answer)}
    {outcome : Except Error Bytes}
    (h : Exchange call.request.frame timeoutMs operations outcome) :
    Call.Ends { call with phase := .completed } timeoutMs operations
      (outcome >>= Response.decodeWith call.decoder) :=
  @Call.Ends.completed { call with phase := .completed } timeoutMs operations rfl outcome h

/-- **The result is a cancellation exactly if the call was cancelled**, unless the endpoint itself
answers with one. -/
theorem Call.Ends.cancelled_iff {call : Call} {timeoutMs : Nat}
    {operations : List (Operation × Answer)} {result : Except Error Datum}
    (h : call.Ends timeoutMs operations result)
    (hendpoint : ∀ operation error, (operation, .failed error) ∈ operations →
      error.isCancelled = false) :
    (∃ error, result = .error error ∧ error.isCancelled = true) ↔ call.phase = .cancelled := by
  cases h with
  | cancelled hwon => exact iff_of_true ⟨_, rfl, rfl⟩ hwon
  | @completed hwon outcome hexchange =>
    refine iff_of_false ?_ (by simp [hwon])
    rintro ⟨error, hresult, hcancelled⟩
    cases outcome with
    | ok frame =>
      rcases Response.decodeWith_error hresult with hdecoding | ⟨code, message, -, rfl⟩
      · exact absurd (hcancelled.symm.trans hdecoding.uncancelled) (by simp)
      · cases hcancelled
    | error fault =>
      cases hresult
      rcases hexchange.error_cases with rfl | ⟨operation, hmem⟩
      · cases hcancelled
      · exact absurd (hcancelled.symm.trans (hendpoint operation error hmem)) (by simp)

/-! ## 2. What lies behind a stage -/

/-- What an execution has asked of the endpoint when it stands at a stage. -/
def CallStage.Tells (timeoutMs : Nat) (call : Call) (operations : List (Operation × Answer)) :
    CallStage → Prop
  | entry | admitted | acquiring | connecting => operations = []
  | leased _ | registered _ | sending _ => Opens operations
  | receiving conn => ∃ opening, Opens opening ∧
    operations = opening ++ [(.send conn call.request.frame, .sent)]
  | exchanged _ result | withdrawn _ result =>
    Exchange call.request.frame timeoutMs operations result
  | releasing _ _ result =>
    (call.phase = .cancelled ∧ result = .error .cancelled) ∨
      (call.phase = .completed ∧ Exchange call.request.frame timeoutMs operations result)
  | settling result =>
    (call.phase = .cancelled ∧ result = .error .cancelled) ∨
      Exchange call.request.frame timeoutMs operations result
  | finished result => call.Ends timeoutMs operations result
  | abandoned => ∃ operation, (operation, .panicked) ∈ operations

section

variable {id timeoutMs : Nat} {pool pool' : Pool} {call call' : Call} {stage stage' : CallStage}
  {events : List Event} {operations : List (Operation × Answer)}

theorem Call.phase_of_isCancelled (h : call.isCancelled = true) : call.phase = .cancelled :=
  beq_iff_eq.mp h

/-- **Each step of an execution goes on with its exchange.** -/
theorem CallMove.tells (h : CallMove id pool call stage pool' call' stage' events)
    (hfirst : stage.isEntry = true → call.executed = false)
    (hlimit : ∀ limit, stage' = .settling (.error (.poolTimeout limit)) → stage = .acquiring →
      limit = timeoutMs)
    (htells : stage.Tells timeoutMs call operations) :
    stage'.Tells timeoutMs call' (operations ++ (Log.exchanges events).map Prod.snd) := by
  cases h with
  | refused hexecuted => exact absurd (hexecuted.symm.trans (hfirst rfl)) (by simp)
  | forestalled hcancelled => exact .inl ⟨Call.phase_of_isCancelled hcancelled, rfl⟩
  | gaveUp hcancelled => exact .inl ⟨Call.phase_of_isCancelled hcancelled, rfl⟩
  | timedOut =>
    obtain rfl := hlimit _ rfl rfl
    obtain rfl : operations = [] := htells
    exact .inr .timedOut
  | reused =>
    obtain rfl : operations = [] := htells
    exact .inl rfl
  | connected =>
    obtain rfl : operations = [] := htells
    exact .inr rfl
  | connectFailed =>
    obtain rfl : operations = [] := htells
    exact .inr .unconnected
  | connectPanicked => exact ⟨.connect, List.mem_append_right _ (List.mem_singleton_self _)⟩
  | @panicked _ _ operation => exact ⟨operation, List.mem_append_right _ (List.mem_cons_self ..)⟩
  | interrupted hcancelled => exact .inl ⟨Call.phase_of_isCancelled hcancelled, rfl⟩
  | sent => exact ⟨operations, htells, rfl⟩
  | sendFailed => exact .unsent htells
  | received =>
    obtain ⟨opening, hopens, rfl⟩ := htells
    rw [List.append_assoc]
    exact .answered hopens
  | receiveFailed =>
    obtain ⟨opening, hopens, rfl⟩ := htells
    rw [List.append_assoc]
    exact .unanswered hopens
  | beaten hcancelled => exact .inl ⟨Call.phase_of_isCancelled hcancelled, rfl⟩
  | succeeded | failed => exact .inr ⟨rfl, (List.append_nil operations).symm ▸ htells⟩
  | @released conn broken result =>
    rw [Pool.giveBackEvents, Log.exchanges_effects, List.map_nil, List.append_nil]
    exact htells.imp_right And.right
  | discarded hcancelled => exact .cancelled (Call.phase_of_isCancelled hcancelled)
  | decoded =>
    rcases htells with ⟨-, hresult⟩ | hexchange
    · cases hresult
    · exact (List.append_nil operations).symm ▸ hexchange.ends
  | reported huncancelled =>
    rcases htells with ⟨hphase, -⟩ | hexchange
    · simp [Call.isCancelled, hphase] at huncancelled
    · exact (List.append_nil operations).symm ▸ hexchange.ends
  | _ => exact (List.append_nil operations).symm ▸ htells

/-- How an execution ends is not a matter of where the call is registered. -/
theorem Call.Ends.unregistered {result : Except Error Datum}
    (h : call.Ends timeoutMs operations result) :
    Call.Ends { call with abort := none } timeoutMs operations result := by
  cases h with
  | cancelled hwon => exact Call.Ends.cancelled hwon
  | completed hwon hexchange =>
    exact @Call.Ends.completed { call with abort := none } _ _ hwon _ hexchange

/-- A cancellation leaves what lies behind an execution as it is. -/
theorem CancelMove.tells {cancelStage cancelStage' : CancelStage}
    (h : CancelMove call cancelStage call' cancelStage' events)
    (htells : stage.Tells timeoutMs call operations) : stage.Tells timeoutMs call' operations := by
  cases h with
  | won hpending =>
    have hleft : call.phase ≠ .cancelled ∧ call.phase ≠ .completed := by simp [hpending]
    cases stage with
    | releasing conn broken result =>
      rcases htells with ⟨hphase, -⟩ | ⟨hphase, -⟩
      · exact absurd hphase hleft.1
      · exact absurd hphase hleft.2
    | settling result =>
      rcases htells with ⟨hphase, -⟩ | hexchange
      · exact absurd hphase hleft.1
      · exact .inr hexchange
    | finished result =>
      cases htells with
      | cancelled hphase => exact absurd hphase hleft.1
      | completed hphase => exact absurd hphase hleft.2
    | _ => exact htells
  | fired =>
    cases stage with
    | finished result => exact Call.Ends.unregistered htells
    | _ => exact htells
  | lost | spared => exact htells

/-- An execution that begins after another one is refused. -/
theorem CallMove.refused_of_executed
    (h : CallMove id pool call stage pool' call' stage' events) (hentry : stage.isEntry = true)
    (hexecuted : call.executed = true) :
    pool' = pool ∧ call' = call ∧ events = [] ∧
      stage' = .finished (.error (.usage (.callExecuted call.request.method))) := by
  cases h with
  | refused => exact ⟨rfl, rfl, rfl, rfl⟩
  | admitted hunexecuted => exact absurd (hexecuted.symm.trans hunexecuted) (by simp)
  | panicked hholding =>
    cases stage with
    | entry => cases hholding
    | _ => cases hentry
  | _ => cases hentry

end

/-! ## 3. The first execution -/

/-- Task `i` is the execution of call `id` that goes through the exchange; the others have not begun
or are over. -/
structure World.Leads (world : World) (i : TaskId) (id timeoutMs : Nat) (stage : CallStage)
    (call : Call) (operations : List (Operation × Answer)) : Prop where
  task_eq : world.machine.tasks[i]? = some (.executing id stage)
  found : world.machine.calls[id]? = some call
  executed : call.executed = true
  begun : stage.isEntry = false
  tells : stage.Tells timeoutMs call operations
  others : ∀ (j : TaskId) other, j ≠ i → world.machine.tasks[j]? = some (.executing id other) →
    other.isEntry = true ∨ other.isOver = true

section

variable {world next : World} {label : Label} {i : TaskId} {id timeoutMs : Nat} {stage : CallStage}
  {call : Call} {operations : List (Operation × Answer)}

/-- Another execution that moves is refused. -/
theorem World.Leads.step_other {j : TaskId} {other : Nat} {stage₀ stage' : CallStage}
    {call₀ call' : Call} {pool' : Pool} {events log : Log}
    (h : world.Leads i id timeoutMs stage call operations) (hne : j ≠ i)
    (htask : world.machine.tasks[j]? = some (.executing other stage₀))
    (hfound : world.machine.calls[other]? = some call₀)
    (hmove : CallMove other world.machine.pool call₀ stage₀ pool' call' stage' events) :
    World.Leads ⟨{ world.machine with
      pool := pool'
      calls := world.machine.calls.set other call'
      tasks := world.machine.tasks.set j (.executing other stage') }, log⟩
      i id timeoutMs stage call operations := by
  have hrefused : other = id → call' = call₀ ∧ stage'.isOver = true := by
    rintro rfl
    cases h.found.symm.trans hfound
    have hentry : stage₀.isEntry = true :=
      (h.others j stage₀ hne htask).resolve_right (by simp [hmove.not_over])
    obtain ⟨-, hcall, -, rfl⟩ := hmove.refused_of_executed hentry h.executed
    exact ⟨hcall, rfl⟩
  have htask' : (world.machine.tasks.set j (.executing other stage'))[i]? =
      some (.executing id stage) := by
    rw [List.getElem?_set_ne hne, h.task_eq]
  have hfound' : (world.machine.calls.set other call')[id]? = some call := by
    by_cases hself : other = id
    · obtain ⟨rfl, -⟩ := hrefused hself
      subst hself
      rw [List.getElem?_set_self (List.getElem?_eq_some_iff.mp hfound).1, ← hfound, h.found]
    · rw [List.getElem?_set_ne hself, h.found]
  refine ⟨htask', hfound', h.executed, h.begun, h.tells, fun k stage'' hk hother => ?_⟩
  rcases getElem?_of_set hother with ⟨-, heq⟩ | hother
  · cases heq
    exact .inr (hrefused rfl).2
  · exact h.others k stage'' hk hother

/-- The first execution goes on with its exchange when it moves. -/
theorem World.Leads.step_self {stage' : CallStage} {call' : Call} {pool' : Pool} {events log : Log}
    (h : world.Leads i id timeoutMs stage call operations)
    (hmove : CallMove id world.machine.pool call stage pool' call' stage' events)
    (hlimit : ∀ limit, stage' = .settling (.error (.poolTimeout limit)) → stage = .acquiring →
      limit = timeoutMs) :
    World.Leads ⟨{ world.machine with
      pool := pool'
      calls := world.machine.calls.set id call'
      tasks := world.machine.tasks.set i (.executing id stage') }, log⟩
      i id timeoutMs stage' call' (operations ++ (Log.exchanges events).map Prod.snd) where
  task_eq := List.getElem?_set_self (List.getElem?_eq_some_iff.mp h.task_eq).1
  found := List.getElem?_set_self (List.getElem?_eq_some_iff.mp h.found).1
  executed := by rw [hmove.executed, h.executed, Bool.true_or]
  begun := hmove.isEntry
  tells := hmove.tells (fun hentry => absurd (hentry.symm.trans h.begun) (by simp)) hlimit h.tells
  others := by
    intro k other hk hother
    rw [List.getElem?_set_ne (Ne.symm hk)] at hother
    exact h.others k other hk hother

/-- The first execution stays as it is when no execution moves. -/
theorem World.Leads.step_none {mover? : Option Task} {events : Log}
    (h : world.Leads i id timeoutMs stage call operations)
    (hstep : Step world.machine mover? next.machine events)
    (hunmoved : ∀ stage, mover? ≠ some (.executing id stage))
    (hkept : next.machine.tasks[i]? = some (.executing id stage))
    (hfresh : ∀ (j : TaskId) other, next.machine.tasks[j]? = some (.executing id other) →
      world.machine.tasks[j]? = some (.executing id other) ∨ other = .entry) :
    ∃ call', next.Leads i id timeoutMs stage call' operations := by
  have hothers : ∀ (j : TaskId) other, j ≠ i →
      next.machine.tasks[j]? = some (.executing id other) →
      other.isEntry = true ∨ other.isOver = true := by
    intro j other hj hother
    rcases hfresh j other hother with hother | rfl
    · exact h.others j other hj hother
    · exact .inl rfl
  rcases hstep.call_cases h.found with ⟨-, hsame⟩ | ⟨stage', _, _, _, hmover, -, -⟩ |
    ⟨_, _, call', -, hmove, hcall'⟩
  · exact ⟨call, hkept, hsame, h.executed, h.begun, h.tells, hothers⟩
  · exact absurd hmover (hunmoved stage')
  · exact ⟨call', hkept, hcall', hmove.executed.trans h.executed, h.begun, hmove.tells h.tells,
      hothers⟩

/-- **The first execution stays the first**, and goes on with its exchange. -/
theorem World.Leads.step (h : world.Leads i id timeoutMs stage call operations)
    (hlimit : world.machine.config.acquireTimeoutMs = timeoutMs)
    (htaken : world.step label = some next) :
    ∃ stage' call', next.Leads i id timeoutMs stage' call'
      (operations ++ (world.exchangeOf? i label).toList) := by
  have hexchanges := World.exchanges_step htaken
  obtain ⟨events, hstep, -⟩ := World.step_ok htaken
  cases World.step_moves htaken with
  | @execution j _ _ stage' _ call' _ _ hmover htask hfound hmove hlimited =>
    rw [Log.exchanges_append, List.append_cancel_left_eq] at hexchanges
    by_cases hself : j = i
    · subst hself
      cases h.task_eq.symm.trans htask
      cases h.found.symm.trans hfound
      rw [World.exchangeOf?, if_pos hmover, Option.toList_map, ← hexchanges]
      exact ⟨stage', call', h.step_self hmove fun limit hstage' hstage =>
        (hlimited limit hstage' hstage).trans hlimit⟩
    · have hnone : label.task? ≠ some i := by simpa [hmover] using hself
      rw [exchangeOf?_eq_none hnone, Option.toList_none, List.append_nil]
      exact ⟨stage, call, h.step_other hself htask hfound hmove⟩
  | other hunmoved hkept hfresh =>
    have hnone : label.task? ≠ some i := fun hmover => hunmoved i hmover id stage h.task_eq
    rw [exchangeOf?_eq_none hnone, Option.toList_none, List.append_nil]
    refine ⟨stage, h.step_none hstep (fun stage' hmover => ?_) (hkept i id stage h.task_eq)
      fun j other => hfresh j id other⟩
    obtain ⟨j, hj, hmoved⟩ := Option.bind_eq_some_iff.mp hmover
    exact hunmoved j hj id stage' hmoved

end

namespace Run

variable {config : Config} {run : Run config} {i : TaskId} {id n : Nat}

/-- Task `i` begins to execute call `id` at a moment. -/
structure Begins (run : Run config) (i : TaskId) (id n : Nat) : Prop where
  moves : run.place? n = some i
  entry : (run.world n).machine.tasks[i]? = some (.executing id .entry)

/-- No execution of call `id` has begun at a moment. -/
def Unbegun (run : Run config) (id n : Nat) : Prop :=
  ∀ stage, .executing id stage ∈ (run.world n).machine.tasks → stage = .entry

/-- **What becomes of an execution in a moment**: it stays as it is, or it moves. -/
theorem execution_next {stage : CallStage}
    (htask : (run.world n).machine.tasks[i]? = some (.executing id stage)) :
    (run.place? n ≠ some i ∧ (run.world (n + 1)).machine.tasks[i]? = some (.executing id stage)) ∨
    run.place? n = some i ∧ ∃ call pool' call' stage' events,
      (run.world n).machine.calls[id]? = some call ∧
        CallMove id (run.world n).machine.pool call stage pool' call' stage' events ∧
        run.world (n + 1) = ⟨{ (run.world n).machine with
          pool := pool'
          calls := (run.world n).machine.calls.set id call'
          tasks := (run.world n).machine.tasks.set i (.executing id stage') },
          (run.world n).log ++ events⟩ ∧
        run.operations i n 1 = (Log.exchanges events).map Prod.snd := by
  rcases run.next n with ⟨hrests, hsame⟩ | ⟨label, hlabel, htaken⟩
  · refine .inl ⟨?_, hsame ▸ htask⟩
    rw [place?, hrests]
    exact nofun
  · have hmoves := World.step_moves htaken
    have hexchanges := World.exchanges_step htaken
    have hplace : run.place? n = label.task? := by rw [place?, hlabel, Option.bind_some]
    have hoperations : label.task? = some i → run.operations i n 1 =
        ((run.world n).exchange? label).toList.map Prod.snd := by
      intro hmover
      rw [operations_succ, Nat.add_zero, hlabel, Option.bind_some, World.exchangeOf?,
        if_pos hmover, Option.toList_map]
      rfl
    rw [hplace]
    generalize run.world (n + 1) = next at hmoves hexchanges
    cases hmoves with
    | @execution j _ _ _ _ _ _ _ hmover htask' hfound hmove =>
      by_cases hself : j = i
      · subst hself
        cases htask.symm.trans htask'
        rw [Log.exchanges_append, List.append_cancel_left_eq] at hexchanges
        refine .inr ⟨hmover, _, _, _, _, _, hfound, hmove, rfl, ?_⟩
        rw [hoperations hmover, hexchanges]
      · refine .inl ⟨?_, (List.getElem?_set_ne hself).trans htask⟩
        simpa [hmover] using hself
    | other hunmoved hkept =>
      exact .inl ⟨fun hmover => hunmoved i hmover id stage htask, hkept i id stage htask⟩

/-- If no execution has begun the call is not marked. -/
theorem Unbegun.unexecuted {call : Call} (h : run.Unbegun id n)
    (hcall : (run.world n).machine.calls[id]? = some call) : call.executed = false := by
  rw [(run.reachable n).marked.marked id call hcall]
  refine List.any_eq_false.mpr fun task htask => ?_
  cases task with
  | executing other stage =>
    by_cases hself : other = id
    · subst hself
      rw [h stage htask]
      simp [Task.hasBegun, CallStage.isEntry]
    · simp [Task.hasBegun, hself]
  | _ => exact Bool.false_ne_true

/-- **The first execution to begin goes through the exchange.** -/
theorem Begins.leads (h : run.Begins i id n) (hfirst : run.Unbegun id n) :
    ∀ k, ∃ stage call, (run.world (n + (k + 1))).Leads i id config.acquireTimeoutMs stage call
      (run.operations i n (k + 1)) := by
  intro k
  induction k with
  | zero =>
    rcases execution_next h.entry with ⟨hrests, -⟩ |
      ⟨-, call, pool', call', stage', events, hfound, hmove, hnext, hoperations⟩
    · exact absurd h.moves hrests
    have hunexecuted := hfirst.unexecuted hfound
    have htells : stage'.Tells config.acquireTimeoutMs call' (run.operations i n 1) := by
      rw [hoperations]
      have hnothing : CallStage.entry.Tells config.acquireTimeoutMs call [] := rfl
      refine hmove.tells (fun _ => hunexecuted) (fun _ _ hstage => ?_) hnothing
      cases hstage
    refine ⟨stage', call', ?_, ?_, ?_, hmove.isEntry, htells, fun j other hj hother => ?_⟩
    · rw [Nat.zero_add, hnext]
      exact List.getElem?_set_self (List.getElem?_eq_some_iff.mp h.entry).1
    · rw [Nat.zero_add, hnext]
      exact List.getElem?_set_self (List.getElem?_eq_some_iff.mp hfound).1
    · rw [hmove.executed]
      exact Bool.or_true _
    · rw [Nat.zero_add, hnext] at hother
      replace hother := (List.getElem?_set_ne (Ne.symm hj)).symm.trans hother
      rw [hfirst other (List.mem_of_getElem? hother)]
      exact .inl rfl
  | succ k ih =>
    obtain ⟨stage, call, hleads⟩ := ih
    rw [operations_succ]
    rcases run.next (n + (k + 1)) with ⟨hrests, hsame⟩ | ⟨label, hlabel, htaken⟩
    · rw [hrests, Option.bind_none, Option.toList_none, List.append_nil]
      exact ⟨stage, call, hsame ▸ hleads⟩
    · have hconfig := (run.reachable (n + (k + 1))).config_eq
      rw [hlabel, Option.bind_some]
      exact hleads.step (congrArg _ hconfig) htaken

/-- The execution that has begun marks its call. -/
theorem executed_of_begun {stage : CallStage} {call : Call}
    (hmem : .executing id stage ∈ (run.world n).machine.tasks) (hstage : stage ≠ .entry)
    (hcall : (run.world n).machine.calls[id]? = some call) : call.executed = true := by
  rw [(run.reachable n).marked.marked id call hcall]
  refine List.any_eq_true.mpr ⟨_, hmem, ?_⟩
  cases stage with
  | entry => exact absurd rfl hstage
  | _ => simp [Task.hasBegun, CallStage.isEntry]

/-- **An execution that begins after another one is refused**: it returns a usage error, and its
step leaves everything else as it was. -/
theorem Begins.refused {call : Call} (h : run.Begins i id n) (hother : ¬ run.Unbegun id n)
    (hcall : (run.world n).machine.calls[id]? = some call) :
    run.world (n + 1) = ⟨{ (run.world n).machine with
      tasks := (run.world n).machine.tasks.set i
        (.executing id (.finished (.error (.usage (.callExecuted call.request.method))))) },
      (run.world n).log⟩ := by
  rcases execution_next h.entry with ⟨hrests, -⟩ |
    ⟨-, call₀, pool', call', stage', events, hfound, hmove, hnext, -⟩
  · exact absurd h.moves hrests
  cases hcall.symm.trans hfound
  have hexecuted : call.executed = true := by
    simp only [Unbegun, not_forall] at hother
    obtain ⟨stage, hmem, hstage⟩ := hother
    exact executed_of_begun hmem hstage hcall
  obtain ⟨hpool, hcall', hevents, hstage⟩ := hmove.refused_of_executed rfl hexecuted
  have hsame : (run.world n).machine.calls.set id call = (run.world n).machine.calls := by
    obtain ⟨hid, rfl⟩ := List.getElem?_eq_some_iff.mp hcall
    exact List.set_getElem_self hid
  rw [hnext, hpool, hcall', hevents, hstage, hsame, List.append_nil]

/-- An execution that is over stays as it is, and takes no step. -/
theorem over_stays {stage : CallStage} {m : Nat} (hnm : n ≤ m)
    (htask : (run.world n).machine.tasks[i]? = some (.executing id stage))
    (hover : stage.isOver = true) :
    (run.world m).machine.tasks[i]? = some (.executing id stage) ∧ run.place? m ≠ some i := by
  have hnext : ∀ {m}, (run.world m).machine.tasks[i]? = some (.executing id stage) →
      run.place? m ≠ some i ∧
        (run.world (m + 1)).machine.tasks[i]? = some (.executing id stage) := by
    intro m htask
    rcases execution_next htask with hstays | ⟨-, _, _, _, _, _, -, hmove, -⟩
    · exact hstays
    · exact absurd (hover.symm.trans hmove.not_over) (by simp)
  have hkept : (run.world m).machine.tasks[i]? = some (.executing id stage) := by
    induction hnm with
    | refl => exact htask
    | step _ ih => exact (hnext ih).2
  exact ⟨hkept, (hnext hkept).1⟩

end Run

/-! ## 4. Coming to an end -/

/-- How many steps an execution takes at most. -/
def CallStage.effort : CallStage → Nat
  | entry => 12
  | admitted => 11
  | acquiring => 10
  | connecting => 9
  | leased _ => 8
  | registered _ => 7
  | sending _ => 6
  | receiving _ => 5
  | exchanged _ _ => 4
  | withdrawn _ _ => 3
  | releasing _ _ _ => 2
  | settling _ => 1
  | finished _ | abandoned => 0

/-- **Each step of an execution takes something from its effort.** -/
theorem CallMove.effort_lt {id : Nat} {pool pool' : Pool} {call call' : Call}
    {stage stage' : CallStage} {events : List Event}
    (h : CallMove id pool call stage pool' call' stage' events) : stage'.effort < stage.effort := by
  cases h with
  | panicked hholding =>
    cases stage with
    | finished | abandoned => cases hholding
    | _ => simp [CallStage.effort]
  | _ => simp [CallStage.effort]

/-- An execution that is not over can take a step, or be sent away, or be answered. -/
theorem CallStage.able {stage : CallStage} (hover : stage.isOver = false) (timeoutMs : Nat)
    (pool : Pool) (call : Call) :
    (∃ turn, stage.advance pool call = some turn) ∨
      (∃ turn, stage.expire timeoutMs pool call = some turn) ∨
      ∃ operation answer turn, stage.operation? call = some operation ∧
        stage.answered pool call answer = some turn := by
  cases stage with
  | entry =>
    refine .inl ?_
    simp only [advance]
    cases call.executed <;> exact ⟨_, rfl⟩
  | admitted =>
    refine .inl ?_
    simp only [advance]
    cases call.isCancelled <;> exact ⟨_, rfl⟩
  | acquiring =>
    refine .inr (.inl ?_)
    simp only [expire]
    cases acquire pool call <;> exact ⟨_, rfl⟩
  | connecting => exact .inr (.inr ⟨_, .connected, _, rfl, rfl⟩)
  | registered conn =>
    refine .inl ?_
    simp only [advance]
    cases call.isCancelled <;> exact ⟨_, rfl⟩
  | sending conn => exact .inr (.inr ⟨_, .sent, _, rfl, rfl⟩)
  | receiving conn => exact .inr (.inr ⟨_, .received [], _, rfl, rfl⟩)
  | withdrawn conn result =>
    refine .inl ?_
    simp only [advance]
    cases call.complete with
    | mk completed call => cases completed <;> cases result <;> exact ⟨_, rfl⟩
  | settling result =>
    refine .inl ?_
    simp only [advance]
    cases call.complete with
    | mk completed call => cases completed <;> exact ⟨_, rfl⟩
  | finished result => cases hover
  | abandoned => cases hover
  | _ => exact .inl ⟨_, rfl⟩

/-- **An execution that is not over is never stuck.** -/
theorem World.execution_able {world : World} {i : TaskId} {id : Nat} {stage : CallStage}
    (hmarked : world.machine.Marked)
    (htask : world.machine.tasks[i]? = some (.executing id stage)) (hover : stage.isOver = false) :
    ∃ label, label.task? = some i ∧ (world.step label).isSome = true := by
  have hid := hmarked.known _ (List.mem_of_getElem? htask) id rfl
  have hcall := List.getElem?_eq_getElem hid
  rcases CallStage.able hover world.machine.config.acquireTimeoutMs world.machine.pool
    world.machine.calls[id] with
    ⟨turn, hturn⟩ | ⟨turn, hturn⟩ | ⟨operation, answer, turn, hoperation, hturn⟩
  · refine ⟨.advance i, rfl, ?_⟩
    simp [step, Machine.advance, htask, hcall, hturn]
  · refine ⟨.expire i, rfl, ?_⟩
    simp [step, Machine.expire, htask, hcall, hturn]
  · refine ⟨.answer i answer, rfl, ?_⟩
    simp [step, Machine.answer, Machine.operation?, htask, hcall, hoperation, hturn]

namespace Run

variable {config : Config} {run : Run config} {i : TaskId} {id n : Nat}

/-- Whenever the task can take a step, or be sent away, or be answered, that happens then or
later. -/
def FairTo (run : Run config) (i : TaskId) : Prop :=
  ∀ n, (∃ label : Label, label.task? = some i ∧ ((run.world n).step label).isSome = true) →
    ∃ m, n ≤ m ∧ run.place? m = some i

/-- An execution goes on with no more effort than before, and with less after a step. -/
theorem effort_later {stage : CallStage} {m : Nat} (hnm : n ≤ m)
    (htask : (run.world n).machine.tasks[i]? = some (.executing id stage)) :
    ∃ stage', (run.world m).machine.tasks[i]? = some (.executing id stage') ∧
      stage'.effort ≤ stage.effort := by
  induction hnm with
  | refl => exact ⟨stage, htask, Nat.le_refl _⟩
  | step _ ih =>
    obtain ⟨stage', htask', hle⟩ := ih
    rcases execution_next htask' with ⟨-, hstays⟩ | ⟨-, _, _, _, stage'', _, -, hmove, hnext, -⟩
    · exact ⟨stage', hstays, hle⟩
    · refine ⟨stage'', ?_, Nat.le_trans (Nat.le_of_lt hmove.effort_lt) hle⟩
      rw [hnext]
      exact List.getElem?_set_self (List.getElem?_eq_some_iff.mp htask').1

/-- **Every execution comes to its end**, if it gets its turns. -/
theorem FairTo.over (hfair : run.FairTo i) {stage : CallStage}
    (htask : (run.world n).machine.tasks[i]? = some (.executing id stage)) :
    ∃ m stage', n ≤ m ∧ (run.world m).machine.tasks[i]? = some (.executing id stage') ∧
      stage'.isOver = true := by
  -- each turn takes something from the effort
  induction heffort : stage.effort using Nat.strongRecOn generalizing n stage with
  | ind effort ih =>
    subst heffort
    cases hover : stage.isOver with
    | true => exact ⟨n, stage, Nat.le_refl n, htask, hover⟩
    | false =>
      obtain ⟨m, hnm, hplace⟩ := hfair n (World.execution_able (run.reachable n).marked htask hover)
      obtain ⟨stage', htask', hle⟩ := effort_later hnm htask
      rcases execution_next htask' with ⟨hrests, -⟩ | ⟨-, _, _, _, stage'', _, -, hmove, hnext, -⟩
      · exact absurd hplace hrests
      · have htask'' : (run.world (m + 1)).machine.tasks[i]? = some (.executing id stage'') := by
          rw [hnext]
          exact List.getElem?_set_self (List.getElem?_eq_some_iff.mp htask').1
        obtain ⟨l, last, hml, hlast, hover⟩ :=
          ih stage''.effort (Nat.lt_of_lt_of_le hmove.effort_lt hle) htask'' rfl
        exact ⟨l, last, Nat.le_trans hnm (Nat.le_of_succ_le hml), hlast, hover⟩

end Run

end RemoteCall.Client
