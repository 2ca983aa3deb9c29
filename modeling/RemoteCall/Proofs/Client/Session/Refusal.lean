/-
# Executing a batch again

A batch runs once.  The execution that moves first starts it, and whoever comes later is refused: in
the background at once, and else in the first turn, which is always possible, has no effects and
changes nothing but where the execution itself stands.  This does not depend on what the first
execution has come to, nor on what moves in between (`refuses_of_started`).
-/
import RemoteCall.Proofs.Client.Life.Steps
import RemoteCall.Proofs.Client.Session.Deeds

namespace RemoteCall.Client

open Success

/-! ## 1. Started batches -/

/-- The collector of an execution that is refused. -/
def Collector.refused : Collector := ⟨.finished (.error (.usage .batchExecuted)), [], []⟩

/-- The batch is started. -/
def Machine.HasStarted (machine : Machine) (id : Nat) : Prop :=
  ∃ batch, machine.batches[id]? = some batch ∧ batch.started = true

/-- A started batch stays started. -/
theorem Machine.HasStarted.step {machine machine' : Machine} {mover? : Option Task} {events : Log}
    {id : Nat} (hstarted : machine.HasStarted id) (htidy : machine.Tidy)
    (h : Step machine mover? machine' events) : machine'.HasStarted id := by
  obtain ⟨batch, hfound, hstarted⟩ := hstarted
  obtain ⟨team', hteam', hcases⟩ := h.teamMove htidy (Machine.team?_eq hfound)
  obtain ⟨batch', hfound', rfl⟩ := Option.map_eq_some_iff.mp hteam'
  refine ⟨batch', hfound', ?_⟩
  rcases hcases with ⟨hsame, -⟩ | hstep
  · exact (congrArg (fun team => team.batch.started) hsame).trans hstarted
  · exact hstep.started hstarted

/-- An execution begins by starting its batch, or it is refused because the batch was started. -/
theorem CollectorMove.of_new {id limit hired : Nat} {crew : Crew} {batch batch' : Batch}
    {collector : Collector} {events : Log}
    (h : CollectorMove id limit crew batch .new batch' collector hired events) :
    batch.started = false ∧ batch'.started = true ∨
      batch.started = true ∧ batch' = batch ∧ collector = .refused := by
  generalize hnew : Collector.new = before at h
  cases h with
  | refused hstarted => cases hnew; exact .inr ⟨hstarted, rfl, rfl⟩
  | started hunstarted => cases hnew; exact .inl ⟨hunstarted, rfl⟩
  | concluded hconcluding => rw [← hnew] at hconcluding; cases hconcluding
  | _ => cases hnew

namespace Session

section

variable {session session' : Session} {name : String} {id : Nat} {batch : Batch} {i j : TaskId}
  {collector : Collector} {may : Order → Prop} {config : Config}

theorem Change.started (hcoherent : session.Coherent config) (h : Change may session session')
    (hstarted : session.machine.HasStarted id) : session'.machine.HasStarted id := by
  obtain ⟨log, hreachable⟩ := hcoherent.reachable
  have htidy := (hreachable.holds Team.Balanced.lasting).tidy
  cases h with
  | obeyed hallowed hdone => exact hstarted.step htidy (Machine.obey_ok hdone)
  | moved hturn =>
    obtain ⟨_, _, -, hstep, -⟩ := hturn.step
    exact hstarted.step htidy hstep
  | hooked | stopped | paused => exact hstarted
  | kept hmachine => rwa [hmachine]

/-- **A started batch stays started**, whatever happens in a session. -/
theorem Leads.started (hcoherent : session.Coherent config) (h : Leads may session session')
    (hstarted : session.machine.HasStarted id) : session'.machine.HasStarted id := by
  induction h with
  | refl => exact hstarted
  | tail hbefore hchange ih => exact hchange.started (hcoherent.leads hbefore) ih

/-- An execution stays where it is, or it makes a move of its own. -/
theorem Change.collector_cases (h : Change may session session')
    (htask : session.machine.tasks[i]? = some (.collecting id collector)) :
    session'.machine.tasks[i]? = some (.collecting id collector) ∨
      ∃ batch batch' collector' hired events, session.machine.batches[id]? = some batch ∧
        session'.machine.batches[id]? = some batch' ∧
        CollectorMove id session.machine.workerLimit (session.machine.crew id) batch collector
          batch' collector' hired events ∧
        session'.machine.tasks[i]? = some (.collecting id collector') := by
  have hkept : ∀ added : List Task,
      (session.machine.tasks ++ added)[i]? = some (.collecting id collector) := fun added =>
    (List.getElem?_append_left (List.getElem?_eq_some_iff.mp htask).1).trans htask
  cases h with
  | obeyed hallowed hdone =>
    obtain ⟨added, htasks, -⟩ := (Machine.obey_ok hdone).tasks_of_order
    exact .inl (htasks ▸ hkept added)
  | moved hturn =>
    obtain ⟨_, events, -, hstep, -⟩ := hturn.step
    refine (hstep.collector_cases htask).imp_right ?_
    rintro ⟨batch, batch', collector', hired, hmove⟩
    exact ⟨batch, batch', collector', hired, events, hmove⟩
  | hooked | stopped => exact .inl (hkept _)
  | paused => exact .inl htask
  | kept hmachine => exact .inl (hmachine ▸ htask)

/-- Task `i` has not begun to execute the batch, or the batch is started. -/
def Begun (i : TaskId) (id : Nat) (machine : Machine) : Prop :=
  machine.tasks[i]? = some (.collecting id .new) ∨ machine.HasStarted id

theorem Leads.begun (hcoherent : session.Coherent config) (hbegun : Begun i id session.machine)
    (h : Leads may session session') : Begun i id session'.machine := by
  induction h with
  | refl => exact hbegun
  | tail hbefore hchange ih =>
    rcases ih with hself | hstarted
    · refine (hchange.collector_cases hself).imp_right ?_
      rintro ⟨_, batch', _, _, _, -, hfound', hmove, -⟩
      rcases hmove.of_new with ⟨-, hstarted⟩ | ⟨hstarted, rfl, -⟩ <;>
        exact ⟨batch', hfound', hstarted⟩
    · exact .inr (hchange.started (hcoherent.leads hbefore) hstarted)

/-! ## 2. Refused executions -/

/-- The batch is started, and task `i` is a further execution of it that is refused or will be. -/
structure Barred (i : TaskId) (id : Nat) (machine : Machine) : Prop where
  started : machine.HasStarted id
  task : machine.tasks[i]? = some (.collecting id .new) ∨
    machine.tasks[i]? = some (.collecting id .refused)

/-- Whatever happens, an execution that comes too late is refused and nothing else. -/
theorem Leads.barred (hcoherent : session.Coherent config) (hbarred : Barred i id session.machine)
    (h : Leads may session session') : Barred i id session'.machine := by
  induction h with
  | refl => exact hbarred
  | tail hbefore hchange ih =>
    refine ⟨hchange.started (hcoherent.leads hbefore) ih.started, ?_⟩
    obtain ⟨batch, hfound, hstarted⟩ := ih.started
    rcases ih.task with hself | hself
    · refine (hchange.collector_cases hself).imp_right ?_
      rintro ⟨batch', _, _, _, _, hfound', -, hmove, hnew⟩
      obtain rfl : batch = batch' := Option.some.inj (hfound.symm.trans hfound')
      rcases hmove.of_new with ⟨hunstarted, -⟩ | ⟨-, -, rfl⟩
      · exact absurd (hstarted.symm.trans hunstarted) (by simp)
      · exact hnew
    · refine .inr ((hchange.collector_cases hself).resolve_right ?_)
      rintro ⟨_, _, _, _, _, -, -, hmove, -⟩
      exact absurd hmove.not_over (by simp [Collector.refused, Collector.isOver])

/-- The turn of an execution that comes too late: always possible, and nothing but its own end. -/
theorem Barred.advance {machine : Machine} (hbarred : Barred i id machine)
    (hself : machine.tasks[i]? = some (.collecting id .new)) :
    machine.advance i =
      some ({ machine with tasks := machine.tasks.set i (.collecting id .refused) }, []) := by
  obtain ⟨batch, hfound, hstarted⟩ := hbarred.started
  obtain ⟨hid, rfl⟩ := List.getElem?_eq_some_iff.mp hfound
  unfold Machine.advance
  simp [hself, hfound, Collector.advance, Collector.new, hstarted, Machine.endCollectorTurn,
    Collector.refused]

theorem await_ok_iff {outcome : Outcome} : await i session = .ok outcome session' ↔
    session' = awaitWithin i patience session ∧ session'.outcome? i = some outcome := by
  rw [await]
  simp only [modify_bind, get_bind]
  cases h : (awaitWithin i patience session).outcome? i with
  | none =>
    refine ⟨fun h => (nomatch h), fun ⟨heq, hsome⟩ => ?_⟩
    rw [heq, h] at hsome
    cases hsome
  | some other =>
    refine pure_ok.trans ⟨fun ⟨heq, hsame⟩ => ⟨hsame, hsame ▸ heq ▸ h⟩, fun ⟨hsame, hsome⟩ => ?_⟩
    rw [hsame, h] at hsome
    exact ⟨(Option.some.inj hsome).symm, hsame⟩

/-- The session in which a user waits for an execution of a batch. -/
def awaiting (session : Session) (id : Nat) (listening : Listening) : Session :=
  { session with
    machine := (session.machine.spawn (.collecting id .new)).2
    audiences := ⟨session.machine.tasks.length, listening, []⟩ :: session.audiences }

theorem executeBatch_eq {listening : Listening} (hname : session.batches.lookup name = some id) :
    executeBatch name listening session =
      await session.machine.tasks.length (session.awaiting id listening) := by
  rw [executeBatch, batchId, bind_of_ok (find_of_some hname)]
  rfl

theorem leads_awaiting (listening : Listening) (hid : id < session.machine.batches.length) :
    Leads (fun _ => True) session (session.awaiting id listening) :=
  leads_beginBatch listening trivial hid

theorem barred_awaiting {listening : Listening} (hstarted : session.machine.HasStarted id) :
    Barred session.machine.tasks.length id (session.awaiting id listening).machine :=
  ⟨hstarted, .inl List.getElem?_concat_length⟩

/-- Whatever comes of executing a started batch is the refusal. -/
theorem refused_of_executeBatch {listening : Listening} {outcome : Outcome}
    (hcoherent : session.Coherent config) (hname : session.batches.lookup name = some id)
    (hstarted : session.machine.HasStarted id)
    (h : executeBatch name listening session = .ok outcome session') :
    (∃ type, outcome = .batch type (.error (.usage .batchExecuted))) ∧
      session'.machine.tasks[session.machine.tasks.length]? = some (.collecting id .refused) := by
  have hid := lt_of_lookup hcoherent.batches hname
  rw [executeBatch_eq hname] at h
  obtain ⟨rfl, houtcome⟩ := await_ok_iff.mp h
  have hawaiting := hcoherent.leads (leads_awaiting listening hid)
  have hwaited : Leads (fun _ => True) (session.awaiting id listening)
      (awaitWithin session.machine.tasks.length patience (session.awaiting id listening)) :=
    leads_awaitWithin patience _
  rcases (hwaited.barred hawaiting (barred_awaiting hstarted)).task with hself | hself
  · simp [outcome?, hself, Collector.new] at houtcome
  · simp only [outcome?, hself, Collector.refused, Option.some.injEq] at houtcome
    exact ⟨⟨_, houtcome.symm⟩, hself⟩

/-- In the background a started batch is refused at once. -/
theorem enqueueBatch_of_started {listening : Listening} {cancelled : Bool}
    (hname : session.batches.lookup name = some id) (hstarted : session.machine.HasStarted id) :
    enqueueBatch name listening cancelled session =
      .error (.error (.usage .batchExecuted)) session := by
  obtain ⟨batch, hfound, hstarted⟩ := hstarted
  have hrefused : session.machine.enqueue id = .error (.usage .batchExecuted) := by
    simp [Machine.enqueue, hfound, hstarted]
  rw [enqueueBatch, batchId, bind_of_ok (find_of_some hname), get_bind, hrefused]
  rfl

/-! ### Where nothing else can move -/

/-- Another execution of a batch lets nobody move that could not move before. -/
theorem advance_spawn {machine : Machine} (hj : j < machine.tasks.length)
    (h : machine.advance j = none) :
    (machine.spawn (.collecting id .new)).2.advance j = none := by
  have htask : (machine.spawn (.collecting id .new)).2.tasks[j]? = machine.tasks[j]? :=
    List.getElem?_append_left hj
  have hcrew : ∀ other,
      (machine.spawn (.collecting id .new)).2.crew other = machine.crew other := by
    intro other
    simp [Machine.crew, Machine.workers, Machine.spawn]
  unfold Machine.advance at h ⊢
  rw [htask]
  cases hself : machine.tasks[j]? with
  | none => rfl
  | some task =>
    rw [hself] at h
    cases task <;> simp_all [Machine.spawn, Machine.workerLimit, Machine.depth]

theorem answer_spawn {machine : Machine} {answer : Answer} (hj : j < machine.tasks.length)
    (h : machine.answer j answer = none) :
    (machine.spawn (.collecting id .new)).2.answer j answer = none := by
  have htask : (machine.spawn (.collecting id .new)).2.tasks[j]? = machine.tasks[j]? :=
    List.getElem?_append_left hj
  unfold Machine.answer at h ⊢
  rw [htask]
  cases hself : machine.tasks[j]? with
  | none => rfl
  | some task =>
    rw [hself] at h
    cases task <;> simp_all [Machine.spawn]

theorem operation?_spawn {machine : Machine} (hj : j < machine.tasks.length) :
    (machine.spawn (.collecting id .new)).2.operation? j = machine.operation? j := by
  have htask : (machine.spawn (.collecting id .new)).2.tasks[j]? = machine.tasks[j]? :=
    List.getElem?_append_left hj
  unfold Machine.operation?
  rw [htask]
  rfl

theorem operate_awaiting {listening : Listening} {operation : Operation}
    (hj : j < session.machine.tasks.length) (h : session.operate j operation = none) :
    (session.awaiting id listening).operate j operation = none := by
  have hreply : ∀ {before after : Session} {answer : Answer}, before.reply j answer = none →
      before.machine = session.machine →
      after.machine = (session.machine.spawn (.collecting id .new)).2 →
      after.reply j answer = none := by
    intro before after answer h hbefore hafter
    refine Option.map_eq_none_iff.mpr (hafter ▸ answer_spawn hj ?_)
    exact hbefore ▸ Option.map_eq_none_iff.mp h
  unfold operate at h ⊢
  cases hendpoint : session.endpoint with
  | address address =>
    simp only [awaiting, hendpoint] at h ⊢
    exact hreply h rfl rfl
  | loopback =>
    cases hvisit : session.visits.find? (·.task == j) with
    | some visit =>
      obtain rfl : visit.task = j := by simpa using List.find?_some hvisit
      simp only [awaiting, hendpoint, hvisit, proceed] at h ⊢
      cases hhook : visit.hook with
      | some child => simp [hhook] at h
      | none =>
        simp only [hhook] at h ⊢
        cases hperformed : session.loopback.perform (session.machine.pool.opened + 1) visit.number
            operation with
        | none => simp only [Machine.spawn, hperformed]
        | some result =>
          simp only [Machine.spawn, hperformed] at h ⊢
          exact hreply h rfl rfl
    | none =>
      simp only [awaiting, hendpoint, hvisit, enter] at h ⊢
      cases hcounted : session.loopback.enter operation with
      | error answer =>
        simp only [hcounted] at h ⊢
        exact hreply h rfl rfl
      | ok counted =>
        simp only [hcounted] at h
        split at h <;> cases h

theorem move_awaiting {listening : Listening} (hj : j < session.machine.tasks.length)
    (h : session.move j = none) : (session.awaiting id listening).move j = none := by
  have hover : ∀ {other}, session.machine.isOver other = false →
      (session.awaiting id listening).machine.isOver other = false := by
    intro other hgoing
    have hother : other < session.machine.tasks.length := by
      by_contra hout
      simp [Machine.isOver, List.getElem?_eq_none (Nat.le_of_not_lt hout)] at hgoing
    unfold Machine.isOver at hgoing ⊢
    rwa [show (session.awaiting id listening).machine.tasks[other]? = session.machine.tasks[other]?
      from List.getElem?_append_left hother]
  unfold move at h ⊢
  by_cases hpaused : session.isPaused j = true
  · rw [if_pos]
    obtain ⟨⟨waiter, other⟩, hmem, hwaits⟩ := List.any_eq_true.mp hpaused
    simp only [Bool.and_eq_true, Bool.not_eq_true'] at hwaits
    exact List.any_eq_true.mpr ⟨(waiter, other), hmem, by simp [hwaits.1, hover hwaits.2]⟩
  · rw [if_neg hpaused] at h
    split_ifs
    · rfl
    · cases hadvanced : session.machine.advance j with
      | some step => simp [hadvanced] at h
      | none =>
        rw [hadvanced] at h
        simp only [awaiting, advance_spawn hj hadvanced, operation?_spawn hj] at h ⊢
        cases hasked : session.machine.operation? j with
        | none => rfl
        | some operation =>
          rw [hasked] at h
          exact operate_awaiting hj h

/-- Waiting is over when the task is. -/
theorem awaitWithin_of_over {fuel : Nat} (hgoing : session.machine.isOver i = false)
    (hmove : session.moveFirst = some session') (hover : session'.machine.isOver i = true) :
    awaitWithin i (fuel + 2) session = session' := by
  simp [awaitWithin, hgoing, hmove, hover]

/-- **Where nothing else can move a started batch is refused at once**, and nothing runs. -/
theorem executeBatch_of_settled {listening : Listening} (hcoherent : session.Coherent config)
    (hname : session.batches.lookup name = some id) (hstarted : session.machine.HasStarted id)
    (hsettled : session.moveFirst = none) :
    ∃ session', executeBatch name listening session =
        .ok (.batch (session.batchType id) (.error (.usage .batchExecuted))) session' ∧
      session'.machine = { session.machine with
        tasks := session.machine.tasks ++ [.collecting id .refused] } ∧
      session'.loopback = session.loopback := by
  let waiting := session.awaiting id listening
  let last := session.machine.tasks.length
  have hself : waiting.machine.tasks[last]? = some (.collecting id .new) :=
    List.getElem?_concat_length
  have hunpaused : waiting.isPaused last = false := by
    refine List.any_eq_false.mpr fun entry hentry => ?_
    have hother : entry.1 ≠ last := Nat.ne_of_lt (hcoherent.paused entry hentry)
    simp [hother]
  have hturn : waiting.machine.advance last = some ({ session.machine with
      tasks := session.machine.tasks ++ [.collecting id .refused] }, []) := by
    rw [(barred_awaiting hstarted).advance hself]
    simp [awaiting, Machine.spawn]
  have hmove : waiting.move last = some { waiting with machine := { session.machine with
      tasks := session.machine.tasks ++ [.collecting id .refused] } } := by
    rw [move, hunpaused, hturn]
    rfl
  -- the tasks before it cannot move now either
  have hfirst : waiting.moveFirst = waiting.move last := by
    have hbefore : (List.range last).findSome? waiting.move = none :=
      List.findSome?_eq_none_iff.mpr fun j hj => move_awaiting (List.mem_range.mp hj)
        (List.findSome?_eq_none_iff.mp hsettled j hj)
    have hcount : waiting.machine.tasks.length = last + 1 := List.length_append
    rw [moveFirst, hcount, List.range_succ, List.findSome?_append, hbefore]
    simp
  have hgoing : waiting.machine.isOver last = false := by
    rw [Machine.isOver, hself]
    rfl
  rw [executeBatch_eq hname]
  refine ⟨_, await_ok_iff.mpr ⟨(awaitWithin_of_over hgoing (hfirst.trans hmove) ?_).symm, ?_⟩,
    rfl, rfl⟩
  · simp [Machine.isOver, last, Collector.refused, Task.isOver, Collector.isOver]
  · simp [outcome?, Collector.refused, batchType]

/-! ## 3. What executing comes to -/

/-- What comes of executing batch `id` when it has been executed before. -/
structure Refuses (session : Session) (name : String) (id : Nat) : Prop where
  /-- In the background nothing happens at all. -/
  enqueued : ∀ listening cancelled, enqueueBatch name listening cancelled session =
    .error (.error (.usage .batchExecuted)) session
  /-- However long it waits for its turn, the execution is refused or can take the turn in which it
  is, with no effects and nothing changed but where it stands. -/
  turn : ∀ listening may session', Leads may (session.awaiting id listening) session' →
    session'.machine.tasks[session.machine.tasks.length]? = some (.collecting id .refused) ∨
      session'.machine.advance session.machine.tasks.length = some ({ session'.machine with
        tasks := session'.machine.tasks.set session.machine.tasks.length
          (.collecting id .refused) }, [])
  /-- Whatever it comes to is a usage error. -/
  executed : ∀ listening outcome session',
    executeBatch name listening session = .ok outcome session' →
      ∃ type, outcome = .batch type (.error (.usage .batchExecuted))
  /-- Where nothing else can move this is all that happens. -/
  settled : session.moveFirst = none → ∀ listening, ∃ session',
    executeBatch name listening session =
        .ok (.batch (session.batchType id) (.error (.usage .batchExecuted))) session' ∧
      session'.machine = { session.machine with
        tasks := session.machine.tasks ++ [.collecting id .refused] } ∧
      session'.loopback = session.loopback

/-- **A started batch is not executed again**, and the attempt runs nothing. -/
theorem refuses_of_started (hcoherent : session.Coherent config)
    (hname : session.batches.lookup name = some id) (hstarted : session.machine.HasStarted id) :
    session.Refuses name id where
  enqueued _ _ := enqueueBatch_of_started hname hstarted
  turn listening _ _ h := by
    have hawaiting := hcoherent.leads
      (leads_awaiting listening (lt_of_lookup hcoherent.batches hname))
    have hbarred := h.barred hawaiting (barred_awaiting hstarted)
    exact hbarred.task.symm.imp_right hbarred.advance
  executed _ _ _ h := (refused_of_executeBatch hcoherent hname hstarted h).1
  settled hsettled _ := executeBatch_of_settled hcoherent hname hstarted hsettled

/-- Whatever has been executed is started. -/
theorem started_of_executeBatch {listening : Listening} {outcome : Outcome}
    (hcoherent : session.Coherent config) (hname : session.batches.lookup name = some id)
    (h : executeBatch name listening session = .ok outcome session') :
    session'.machine.HasStarted id := by
  have hid := lt_of_lookup hcoherent.batches hname
  rw [executeBatch_eq hname] at h
  obtain ⟨rfl, houtcome⟩ := await_ok_iff.mp h
  have hbegun : Begun session.machine.tasks.length id (session.awaiting id listening).machine :=
    .inl List.getElem?_concat_length
  have hwaited : Leads (fun _ => True) (session.awaiting id listening)
      (awaitWithin session.machine.tasks.length patience (session.awaiting id listening)) :=
    leads_awaitWithin patience _
  have hcoherent' := hcoherent.leads (leads_awaiting listening hid)
  refine (hwaited.begun hcoherent' hbegun).resolve_left fun hself => ?_
  simp [outcome?, hself, Collector.new] at houtcome

theorem started_of_enqueue {machine : Machine} {enqueued : TaskId × Machine}
    (h : machine.enqueue id = .ok enqueued) : enqueued.2.HasStarted id := by
  unfold Machine.enqueue at h
  cases hfound : machine.batches[id]? with
  | none => simp [hfound] at h
  | some batch =>
    simp only [hfound] at h
    split_ifs at h
    cases h
    exact ⟨_, List.getElem?_set_self (List.getElem?_eq_some_iff.mp hfound).1, rfl⟩

theorem started_of_enqueueBatch {listening : Listening} {cancelled : Bool}
    {result : Outcome × Bool} (hcoherent : session.Coherent config)
    (hname : session.batches.lookup name = some id)
    (h : enqueueBatch name listening cancelled session = .ok result session') :
    session'.machine.HasStarted id := by
  obtain ⟨id', t, hfind, hbody⟩ := bind_ok.mp h
  obtain ⟨rfl, hname'⟩ := find_ok_iff.mp hfind
  obtain rfl : id = id' := Option.some.inj (hname.symm.trans hname')
  rw [get_bind] at hbody
  obtain ⟨enqueued, u, hchecked, hrest⟩ := bind_ok.mp hbody
  obtain ⟨rfl, henqueued⟩ := check_ok hchecked
  obtain ⟨⟨⟩, v, hmodified, hattending⟩ := bind_ok.mp hrest
  cases hmodified
  have hordered : Leads (fun _ => True) _ _ := leads_enqueue listening trivial henqueued
  have hknown := Nat.lt_of_lt_of_le (lt_of_lookup hcoherent.batches hname) hordered.batches_le
  have hattended : Leads (fun _ => True) _ _ := leads_attend enqueued.1 cancelled trivial hknown
  rw [effect_eq_none_iff.mpr ⟨result, hattending⟩] at hattended
  exact hattended.started (hcoherent.leads hordered) (started_of_enqueue henqueued)

end

end Session

end RemoteCall.Client
