/-
# Whose request and whose response

Every request in the log is the request of the call or item that it was sent for
(`World.Reachable.sent_asks`), and every response that was decoded for a call or item had been
received for it (`World.Reachable.received`).
-/
import RemoteCall.Proofs.Client.Accounts
import RemoteCall.Proofs.Client.Traffic

namespace RemoteCall.Client

/-! ## 1. The items of a team -/

/-- Whatever is in the queue of a batch or with its workers is an item of the batch. -/
def Team.Stocked (team : Team) (_ : List Callback) : Prop :=
  (∀ item ∈ team.batch.queue, item ∈ team.batch.items) ∧
    ∀ worker ∈ team.workers, ∀ item ∈ worker.held, item ∈ team.batch.items

/-- A worker takes its items from the queue. -/
theorem WorkerMove.stock {id depth timeoutMs : Nat} {pool pool' : Pool} {batch batch' : Batch}
    {stage stage' : WorkerStage} {events : List Event}
    (h : WorkerMove id depth timeoutMs pool batch stage pool' batch' stage' events) :
    (∀ item ∈ batch'.queue, item ∈ batch.queue) ∧
      ∀ item ∈ stage'.held, item ∈ stage.held ∨ item ∈ batch.queue := by
  cases h with
  | @fetched conn slot item items hfound =>
    refine ⟨fun item hitem => List.mem_of_mem_drop hitem, fun item hitem => .inr ?_⟩
    rw [WorkerStage.held, List.nil_append, ← hfound] at hitem
    exact List.mem_of_mem_take hitem
  | @sent conn slot item sent todo =>
    refine ⟨fun _ hitem => hitem, fun item hitem => .inl ?_⟩
    rwa [WorkerStage.held_dispatch, List.append_assoc] at hitem
  | sendFailed =>
    refine ⟨fun _ hitem => hitem, fun item hitem => .inl ?_⟩
    rw [WorkerStage.held_await] at hitem
    exact List.mem_append_left _ hitem
  | reported =>
    refine ⟨fun _ hitem => hitem, fun item hitem => .inl ?_⟩
    rw [WorkerStage.held_await] at hitem
    exact List.mem_cons_of_mem _ hitem
  | received => exact ⟨fun _ hitem => hitem, fun _ hitem => .inl hitem⟩
  | _ => exact ⟨fun _ hitem => hitem, fun _ hitem => absurd hitem List.not_mem_nil⟩

theorem Team.Stocked.step {id limit depth timeoutMs : Nat} {serving : Bool} {team team' : Team}
    {callbacks : List Callback} {events : Log} (h : team.Stocked callbacks)
    (hstep : TeamMove id limit depth timeoutMs team serving team' events) :
    team'.Stocked (callbacks ++ events.callbacks id) := by
  obtain ⟨hqueue, hworkers⟩ := h
  cases hstep with
  | grow hallowed =>
    exact ⟨fun item hitem => List.mem_append_left _ (hqueue item hitem),
      fun worker hworker item hitem => List.mem_append_left _ (hworkers worker hworker item hitem)⟩
  | start before after hunstarted hleads => exact ⟨hqueue, hworkers⟩
  | @lead before after collector collector' batch' hired events hself hleads hmove =>
    obtain ⟨hitems, -⟩ := hmove.batch_frame hleads
    have hqueue' : ∀ item ∈ batch'.queue, item ∈ batch'.items := by
      rw [hitems]
      cases hmove with
      | launched => exact fun _ hitem => hitem
      | _ => exact hqueue
    refine ⟨hqueue', List.forall_mem_append.mpr ⟨?_, fun worker hworker item hitem => ?_⟩⟩
    · rw [hitems]
      exact hworkers
    · rw [(List.mem_replicate.mp hworker).2] at hitem
      exact absurd hitem List.not_mem_nil
  | work hself hmove =>
    obtain ⟨hitems, -⟩ := hmove.batch_frame
    obtain ⟨hqueue', hheld⟩ := hmove.stock
    rw [hself, List.forall_mem_append, List.forall_mem_cons] at hworkers
    unfold Team.Stocked
    rw [hitems]
    refine ⟨fun item hitem => hqueue item (hqueue' item hitem), List.forall_mem_append.mpr
      ⟨hworkers.1, List.forall_mem_cons.mpr ⟨fun item hitem => ?_, hworkers.2.2⟩⟩⟩
    exact (hheld item hitem).elim (hworkers.2.1 item) (hqueue item)
  | stop hmove =>
    obtain ⟨hitems, -, hqueue', -⟩ := hmove.batch_frame
    unfold Team.Stocked
    rw [hitems, hqueue']
    exact ⟨hqueue, hworkers⟩

theorem Team.Stocked.lasting : Team.Lasting Team.Stocked where
  blank := ⟨List.forall_mem_nil _, List.forall_mem_nil _⟩
  copied _ := ⟨List.forall_mem_nil _, List.forall_mem_nil _⟩
  polled _ := ⟨List.forall_mem_nil _, List.forall_mem_nil _⟩
  step h hstep := h.step hstep

/-! ## 2. Requests -/

/-- What a client asks for with a call or with an item of a batch. -/
inductive Machine.Asks (machine : Machine) : Subject → Bytes → Prop
  | call {id : Nat} {call : Call} (found : machine.calls[id]? = some call) :
    Asks machine (.call id) call.request.frame
  | item {id : Nat} {batch : Batch} {item : BatchItem} (found : machine.batches[id]? = some batch)
    (mem : item ∈ batch.items) : Asks machine (.item id item.key) item.request.frame

/-- What no step changes about a call: what it asks for, how the response is read, and that it is
cancelled. -/
structure Call.Keeps (call call' : Call) : Prop where
  request_eq : call'.request = call.request
  decoder_eq : call'.decoder = call.decoder
  cancelled : call.isCancelled = true → call'.isCancelled = true

theorem Call.Keeps.refl (call : Call) : call.Keeps call := ⟨rfl, rfl, fun h => h⟩

theorem CallMove.keeps {id : Nat} {pool pool' : Pool} {call call' : Call}
    {stage stage' : CallStage} {events : List Event}
    (h : CallMove id pool call stage pool' call' stage' events) : call.Keeps call' := by
  cases h with
  | succeeded huncancelled | failed huncancelled | decoded huncancelled
  | reported huncancelled =>
    exact ⟨rfl, rfl, fun hcancelled => absurd (hcancelled.symm.trans huncancelled) (by simp)⟩
  | _ => exact ⟨rfl, rfl, fun h => h⟩

theorem CancelMove.keeps {call call' : Call} {stage stage' : CancelStage} {events : List Event}
    (h : CancelMove call stage call' stage' events) : call.Keeps call' := by
  cases h with
  | won hpending => exact ⟨rfl, rfl, fun _ => rfl⟩
  | _ => exact ⟨rfl, rfl, fun h => h⟩

section

variable {machine machine' : Machine} {mover? : Option Task} {log events : Log} {id : Nat}

/-- A step changes one entry of a list at most, and may add some. -/
theorem kept_of_set {α : Type} {list : List α} {other : Nat} {a b new : α} {P : α → α → Prop}
    (hrefl : ∀ a, P a a) (hfound : list[id]? = some a) (hother : list[other]? = some b)
    (hnew : P b new) : ∃ a', (list.set other new)[id]? = some a' ∧ P a a' := by
  refine ⟨_, getElem?_set_or hfound, ?_⟩
  by_cases hself : other = id
  · subst hself
    cases hother.symm.trans hfound
    rw [if_pos rfl]
    exact hnew
  · rw [if_neg hself]
    exact hrefl a

/-- What becomes of a call. -/
theorem Step.calls_kept {call : Call} (h : Step machine mover? machine' events)
    (hcall : machine.calls[id]? = some call) :
    ∃ call', machine'.calls[id]? = some call' ∧ call.Keeps call' := by
  cases h with
  | newCall request decoder =>
    refine ⟨call, ?_, .refl call⟩
    rw [List.getElem?_append_left (List.getElem?_eq_some_iff.mp hcall).1, hcall]
  | executing htasks hfound hmove => exact kept_of_set .refl hcall hfound hmove.keeps
  | cancelling htasks hfound hmove => exact kept_of_set .refl hcall hfound hmove.keeps
  | _ => exact ⟨call, hcall, .refl call⟩

/-- What becomes of a batch. -/
theorem Step.batches_kept {batch : Batch} (h : Step machine mover? machine' events)
    (hbatch : machine.batches[id]? = some batch) :
    ∃ batch', machine'.batches[id]? = some batch' ∧ ∀ item ∈ batch.items, item ∈ batch'.items := by
  have happended : ∀ batches, (machine.batches ++ batches)[id]? = some batch := by
    intro batches
    rw [List.getElem?_append_left (List.getElem?_eq_some_iff.mp hbatch).1, hbatch]
  have hset : ∀ {other old new}, machine.batches[other]? = some old →
      (∀ item ∈ old.items, item ∈ new.items) → ∃ batch', (machine.batches.set other new)[id]? =
        some batch' ∧ ∀ item ∈ batch.items, item ∈ batch'.items :=
    fun hother hnew => kept_of_set (P := fun old new => ∀ item ∈ old.items, item ∈ new.items)
      (fun _ _ h => h) hbatch hother hnew
  cases h with
  | newBatch hknown => exact ⟨batch, happended _, fun _ h => h⟩
  | poll hfound => exact ⟨batch, happended _, fun _ h => h⟩
  | addItem hfound hallowed => exact hset hfound fun _ h => List.mem_append_left _ h
  | enqueue hfound hunstarted => exact hset hfound fun _ h => h
  | collecting htasks hfound hmove => exact hset hfound (by cases hmove <;> exact fun _ h => h)
  | working htasks hfound hmove => exact hset hfound (hmove.batch_frame.1 ▸ fun _ h => h)
  | stopping htasks hfound hmove => exact hset hfound (hmove.batch_frame.1 ▸ fun _ h => h)
  | _ => exact ⟨batch, hbatch, fun _ h => h⟩

/-- What was asked for once stays asked for. -/
theorem Machine.Asks.step {subject : Subject} {frame : Bytes} (hasks : machine.Asks subject frame)
    (h : Step machine mover? machine' events) : machine'.Asks subject frame := by
  cases hasks with
  | call hfound =>
    obtain ⟨call', hfound', hkeeps⟩ := h.calls_kept hfound
    rw [← hkeeps.request_eq]
    exact .call hfound'
  | item hfound hmem =>
    obtain ⟨batch', hfound', hitems⟩ := h.batches_kept hfound
    exact .item hfound' (hitems _ hmem)

theorem Log.eq_of_mem_sentOn {subject : Subject} {frame : Bytes} {other conn : ConnId}
    {entry : Subject × Bytes}
    (h : entry ∈ Log.sentOn [.exchange (some subject) (.send other frame) .sent] conn) :
    entry = (subject, frame) := by
  by_cases hconn : other = conn
  · simpa [sentOn, hconn] using h
  · simp [sentOn, hconn] at h

theorem CallMove.sent_eq {pool pool' : Pool} {call call' : Call} {stage stage' : CallStage}
    {conn : ConnId} (h : CallMove id pool call stage pool' call' stage' events) :
    ∀ entry ∈ Log.sentOn events conn, entry = (.call id, call.request.frame) := by
  cases h with
  | sent => exact fun entry => Log.eq_of_mem_sentOn
  | @panicked _ _ operation =>
    cases operation <;> exact List.forall_mem_nil _
  | @released _ broken => cases broken <;> exact List.forall_mem_nil _
  | _ => exact List.forall_mem_nil _

theorem WorkerMove.sent_eq {depth timeoutMs : Nat} {pool pool' : Pool} {batch batch' : Batch}
    {stage stage' : WorkerStage} {conn : ConnId}
    (h : WorkerMove id depth timeoutMs pool batch stage pool' batch' stage' events) :
    ∀ entry ∈ Log.sentOn events conn, ∃ item ∈ stage.held,
      entry = (.item id item.key, item.request.frame) := by
  cases h with
  | @sent other slot item sent todo =>
    intro entry hentry
    exact ⟨item, List.mem_append_right _ (List.mem_cons_self ..), Log.eq_of_mem_sentOn hentry⟩
  | @panicked _ _ operation =>
    cases operation <;> exact List.forall_mem_nil _
  | @released _ broken => cases broken <;> exact List.forall_mem_nil _
  | _ => exact List.forall_mem_nil _

/-- What a step sends is asked for. -/
theorem Step.sent_asks (h : Step machine mover? machine' events)
    (hstocked : machine.Holds Team.Stocked log) {conn : ConnId} :
    ∀ entry ∈ Log.sentOn events conn, machine.Asks entry.1 entry.2 := by
  intro entry hentry
  have hquiet : ¬ ∀ event ∈ events, event.IsQuiet := by
    intro hquiet
    rw [(Log.silent_quiet hquiet).1] at hentry
    exact absurd hentry List.not_mem_nil
  cases h with
  | executing htasks hfound hmove =>
    rw [hmove.sent_eq entry hentry]
    exact .call hfound
  | @working before after id stage stage' batch batch' pool' events htasks hfound hmove =>
    obtain ⟨item, hitem, rfl⟩ := hmove.sent_eq entry hentry
    have hworker : stage ∈ machine.tasks.filterMap (Task.worker? id) := by
      rw [htasks, filterMap_around_some Task.worker?_self]
      exact List.mem_append_right _ (List.mem_cons_self ..)
    obtain ⟨-, hheld⟩ := hstocked.teams id _ (Machine.team?_eq hfound)
    exact .item hfound (hheld stage hworker item hitem)
  | cancelling htasks hfound hmove =>
    exact absurd hmove.quiet hquiet
  | collecting htasks hfound hmove => exact absurd hmove.quiet hquiet
  | stopping htasks hfound hmove =>
    exact absurd hmove.quiet hquiet
  | _ => exact absurd hentry List.not_mem_nil

end

/-- **Every request is sent for the call or item that asks for it.** -/
theorem World.Reachable.sent_asks {config : Config} {world : World} (h : Reachable config world)
    (conn : ConnId) : ∀ entry ∈ world.log.sentOn conn, world.machine.Asks entry.1 entry.2 := by
  refine @Reachable.induct config (fun machine log => ∀ entry ∈ log.sentOn conn,
    machine.Asks entry.1 entry.2) (List.forall_mem_nil _)
    (fun {machine mover? machine' log events} hreachable hasks hstep entry hentry => ?_) world h
  have hstocked : machine.Holds Team.Stocked log := hreachable.holds Team.Stocked.lasting
  rw [Log.sentOn_append] at hentry
  rcases List.mem_append.mp hentry with hentry | hentry
  · exact (hasks entry hentry).step hstep
  · exact (hstep.sent_asks hstocked entry hentry).step hstep

/-! ## 3. Responses -/

/-- The response that a task has received and not yet decoded, with what it is for. -/
def CallStage.response? (id : Nat) : CallStage → Option (Subject × Bytes)
  | exchanged _ (.ok frame) | withdrawn _ (.ok frame) | releasing _ _ (.ok frame)
  | settling (.ok frame) => some (.call id, frame)
  | _ => none

/-- The response that a task has received and not yet decoded, with what it is for. -/
def WorkerStage.response? (id : Nat) : WorkerStage → Option (Subject × Bytes)
  | received _ _ item frame _ _ => some (.item id item.key, frame)
  | _ => none

/-- The response that a task has received and not yet decoded, with what it is for. -/
def Task.response? : Task → Option (Subject × Bytes)
  | executing id stage => stage.response? id
  | working id stage => stage.response? id
  | _ => none

/-- What is decoded and what waits to be decoded has been received. -/
structure Received (tasks : List Task) (log : Log) : Prop where
  waiting : ∀ task ∈ tasks, ∀ response, task.response? = some response →
    ∃ conn, response ∈ log.receivedOn conn
  decoded : ∀ subject frame, .decoded subject frame ∈ log →
    ∃ conn, (subject, frame) ∈ log.receivedOn conn

/-- A response that a move comes by is received in it or was there before, and only the latter is
decoded. -/
def Hands (before? after? : Option (Subject × Bytes)) (events : Log) : Prop :=
  (∀ response, after? = some response →
    before? = some response ∨ ∃ conn, response ∈ events.receivedOn conn) ∧
  ∀ subject frame, .decoded subject frame ∈ events → before? = some (subject, frame)

theorem Hands.nothing {before? : Option (Subject × Bytes)} {events : Log}
    (h : ∀ subject frame, .decoded subject frame ∉ events) : Hands before? none events :=
  ⟨fun _ hnone => absurd hnone (by simp), fun subject frame hmem => absurd hmem (h subject frame)⟩

theorem Hands.on {response? : Option (Subject × Bytes)} {events : Log}
    (h : ∀ subject frame, .decoded subject frame ∉ events) : Hands response? response? events :=
  ⟨fun _ hsome => .inl hsome, fun subject frame hmem => absurd hmem (h subject frame)⟩

theorem Pool.undecoded_giveBackEvents {pool : Pool} {conn : ConnId} {broken : Bool}
    (subject : Subject) (frame : Bytes) :
    .decoded subject frame ∉ pool.giveBackEvents conn broken := by
  cases broken <;> simp [Pool.giveBackEvents, Pool.giveBack]

theorem CallMove.hands {id : Nat} {pool pool' : Pool} {call call' : Call}
    {stage stage' : CallStage} {events : List Event}
    (h : CallMove id pool call stage pool' call' stage' events) :
    Hands (stage.response? id) (stage'.response? id) events := by
  cases h with
  | @received conn frame =>
    refine ⟨fun response hsome => .inr ⟨conn, ?_⟩, fun subject frame' hmem => ?_⟩
    · cases hsome
      simp [Log.receivedOn]
    · simp at hmem
  | @withdrawn conn result => cases result <;> exact .on (by simp)
  | @beaten _ conn result => exact .nothing (by simp)
  | succeeded => exact .on (by simp)
  | @released conn broken result =>
    have hsame : (CallStage.releasing conn broken result).response? id =
        (CallStage.settling result).response? id := by cases result <;> rfl
    rw [hsame]
    exact .on pool.undecoded_giveBackEvents
  | @decoded _ frame =>
    refine ⟨fun _ hnone => absurd hnone (by simp [CallStage.response?]),
      fun subject frame' hmem => ?_⟩
    cases List.mem_singleton.mp hmem
    rfl
  | panicked => exact .nothing (by simp [Pool.undecoded_giveBackEvents])
  | _ => exact .nothing (by simp)

theorem WorkerMove.hands {id depth timeoutMs : Nat} {pool pool' : Pool} {batch batch' : Batch}
    {stage stage' : WorkerStage} {events : List Event}
    (h : WorkerMove id depth timeoutMs pool batch stage pool' batch' stage' events) :
    Hands (stage.response? id) (stage'.response? id) events := by
  have hawait : ∀ {conn slot waiting sendError},
      (WorkerStage.await conn slot waiting sendError).response? id = none := by
    intro conn slot waiting sendError
    unfold WorkerStage.await
    split <;> rfl
  have hdispatch : ∀ {conn slot sent todo},
      (WorkerStage.dispatch conn slot sent todo).response? id = none := by
    intro conn slot sent todo
    unfold WorkerStage.dispatch
    split
    · exact hawait
    · rfl
  cases h with
  | sent =>
    rw [hdispatch]
    exact .nothing (by simp)
  | sendFailed =>
    rw [hawait]
    exact .nothing (by simp)
  | @received conn slot item waiting sendError frame =>
    refine ⟨fun response hsome => .inr ⟨conn, ?_⟩, fun subject frame' hmem => ?_⟩
    · cases hsome
      simp [Log.receivedOn]
    · simp at hmem
  | reported =>
    rw [hawait]
    refine ⟨fun _ hnone => absurd hnone (by simp), fun subject frame' hmem => ?_⟩
    cases List.mem_singleton.mp hmem
    rfl
  | released => exact .nothing pool.undecoded_giveBackEvents
  | panicked => exact .nothing (by simp [Pool.undecoded_giveBackEvents])
  | _ => exact .nothing (by simp)

section

variable {tasks before after : List Task} {task task' : Task} {log events : Log}

theorem Received.append {added : List Task} (h : Received tasks log)
    (hadded : ∀ task ∈ added, task.response? = none)
    (hevents : ∀ subject frame, .decoded subject frame ∉ events) :
    Received (tasks ++ added) (log ++ events) := by
  refine ⟨List.forall_mem_append.mpr ⟨fun task htask response hsome => ?_, fun task htask response
    hsome => ?_⟩, fun subject frame hmem => ?_⟩
  · obtain ⟨conn, hconn⟩ := h.waiting task htask response hsome
    exact ⟨conn, Log.receivedOn_append ▸ List.mem_append_left _ hconn⟩
  · rw [hadded task htask] at hsome
    cases hsome
  · obtain ⟨conn, hconn⟩ := h.decoded subject frame
      ((List.mem_append.mp hmem).resolve_right (hevents subject frame))
    exact ⟨conn, Log.receivedOn_append ▸ List.mem_append_left _ hconn⟩

theorem Received.move (h : Received (before ++ task :: after) log)
    (hhands : Hands task.response? task'.response? events) :
    Received (before ++ task' :: after) (log ++ events) := by
  obtain ⟨hwaiting, hdecoded⟩ := h
  rw [List.forall_mem_append, List.forall_mem_cons] at hwaiting
  have hlater : ∀ {response}, (∃ conn, response ∈ log.receivedOn conn) →
      ∃ conn, response ∈ (log ++ events).receivedOn conn := by
    rintro response ⟨conn, hconn⟩
    exact ⟨conn, Log.receivedOn_append ▸ List.mem_append_left _ hconn⟩
  refine ⟨List.forall_mem_append.mpr ⟨fun task htask response hsome => ?_,
    List.forall_mem_cons.mpr ⟨fun response hsome => ?_, fun task htask response hsome => ?_⟩⟩,
    fun subject frame hmem => ?_⟩
  · exact hlater (hwaiting.1 task htask response hsome)
  · rcases hhands.1 response hsome with hbefore | ⟨conn, hconn⟩
    · exact hlater (hwaiting.2.1 response hbefore)
    · exact ⟨conn, Log.receivedOn_append ▸ List.mem_append_right _ hconn⟩
  · exact hlater (hwaiting.2.2 task htask response hsome)
  · rcases List.mem_append.mp hmem with hmem | hmem
    · exact hlater (hdecoded subject frame hmem)
    · exact hlater (hwaiting.2.1 _ (hhands.2 subject frame hmem))

end

/-- **Every response that is decoded has been received for the same call or item.** -/
theorem World.Reachable.received {config : Config} {world : World} (h : Reachable config world) :
    Received world.machine.tasks world.log := by
  refine @Reachable.induct config (fun machine log => Received machine.tasks log)
    ⟨List.forall_mem_nil _, fun _ _ hmem => absurd hmem List.not_mem_nil⟩
    (fun {machine mover? machine' log events} _ hreceived hstep => ?_) world h
  have hsame : Received machine.tasks (log ++ []) := by
    rw [List.append_nil]
    exact hreceived
  cases hstep with
  | newCall request decoder => exact hsame
  | newBatch hknown => exact hsame
  | addItem hfound hallowed => exact hsame
  | spawn hfresh =>
    refine hreceived.append (List.forall_mem_singleton.mpr ?_) (by simp)
    cases hfresh <;> rfl
  | enqueue hfound hunstarted =>
    exact hreceived.append (List.forall_mem_singleton.mpr rfl) (by simp)
  | poll hfound => exact hreceived.append (List.forall_mem_singleton.mpr rfl) (by simp)
  | executing htasks hfound hmove =>
    rw [htasks] at hreceived
    exact hreceived.move hmove.hands
  | cancelling htasks hfound hmove =>
    rw [htasks] at hreceived
    exact hreceived.move (.on (by cases hmove <;> simp))
  | @collecting before after id hired collector collector' batch batch' events htasks hfound
      hmove =>
    rw [htasks] at hreceived
    have hmoved : Received (before ++ .collecting id collector' :: after) (log ++ events) :=
      hreceived.move (.on (by cases hmove <;> simp))
    have hnothing : ∀ task ∈ List.replicate hired (Task.working id .acquiring),
        task.response? = none := by
      intro task htask
      rw [(List.mem_replicate.mp htask).2]
      rfl
    have hhired := hmoved.append hnothing fun _ _ => List.not_mem_nil
    rwa [List.append_nil] at hhired
  | working htasks hfound hmove =>
    rw [htasks] at hreceived
    exact hreceived.move hmove.hands
  | stopping htasks hfound hmove =>
    rw [htasks] at hreceived
    exact hreceived.move (.on (by cases hmove <;> simp))

end RemoteCall.Client
