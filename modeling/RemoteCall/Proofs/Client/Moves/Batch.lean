/-
# What a step of a batch does

The steps of the tasks of a batch, each under a name: `WorkerMove` for those of a worker,
`CollectorMove` for those of the collector, `StopMove` for those of a cancellation.  As for calls,
the lemmas `of_advance`, `of_expire` and `of_answered` say that there are no others.
-/
import RemoteCall.Proofs.Client.Moves.Holding

namespace RemoteCall.Client

/-! ## 1. Workers -/

/-- A step of a worker of batch `id`, from a stage to a pool, a batch and a stage, with the events
that are logged.  `depth` is the length of a chunk, `timeoutMs` the limit of the wait for a
connection. -/
inductive WorkerMove (id depth timeoutMs : Nat) (pool : Pool) (batch : Batch) :
    WorkerStage → Pool → Batch → WorkerStage → List Event → Prop
  | gaveUp (stopping : batch.isStopping = true) {notice : Notice} :
    WorkerMove id depth timeoutMs pool batch .acquiring pool
      { batch with acquireError := some .cancelled } .finished [.effect (.notice notice)]
  | timedOut (going : batch.isStopping = false) {notice : Notice}
    (none_idle : pool.idle = []) (full : pool.limit ≤ pool.leased) :
    WorkerMove id depth timeoutMs pool batch .acquiring pool
      { batch with acquireError := some (.poolTimeout timeoutMs) } .finished
      [.effect (.notice notice)]
  | reused (going : batch.isStopping = false) {conn : ConnId} {idle : List ConnId}
    (found : pool.idle = conn :: idle) {notice : Notice} :
    WorkerMove id depth timeoutMs pool batch .acquiring
      { pool with idle := idle, leased := pool.leased + 1 } batch (.leased conn)
      [.effect (.notice notice)]
  | reserved (going : batch.isStopping = false) (none_idle : pool.idle = [])
    (room : pool.leased < pool.limit) :
    WorkerMove id depth timeoutMs pool batch .acquiring
      { pool with leased := pool.leased + 1 } batch .connecting []
  | connected :
    WorkerMove id depth timeoutMs pool batch .connecting
      { pool with opened := pool.opened + 1 } batch (.leased (pool.opened + 1))
      [.exchange none .connect .connected]
  | connectFailed {error : Error} {first second : Notice} :
    WorkerMove id depth timeoutMs pool batch .connecting pool.connectFailed
      { batch with acquireError := some error } .finished
      [.exchange none .connect (.failed error), .effect (.notice first), .effect (.notice second)]
  | connectPanicked :
    WorkerMove id depth timeoutMs pool batch .connecting pool batch .abandoned
      [.exchange none .connect .panicked]
  | turnedAway (stopping : batch.isStopping = true) {conn : ConnId} :
    WorkerMove id depth timeoutMs pool batch (.leased conn) pool batch (.failing conn .cancelled)
      [.effect (.abort conn)]
  | registered (going : batch.isStopping = false) {conn : ConnId} :
    WorkerMove id depth timeoutMs pool batch (.leased conn) pool
      { batch with aborts := batch.aborts ++ [some conn] } (.ready conn batch.aborts.length) []
  | stopped (stopping : batch.isStopping = true) {conn : ConnId} {slot : Nat} :
    WorkerMove id depth timeoutMs pool batch (.ready conn slot) pool batch
      (.failing conn .cancelled) []
  | wentOn (going : batch.isStopping = false) {conn : ConnId} {slot : Nat} :
    WorkerMove id depth timeoutMs pool batch (.ready conn slot) pool batch (.fetching conn slot) []
  | drained {conn : ConnId} {slot : Nat} (empty : batch.queue.take depth = []) :
    WorkerMove id depth timeoutMs pool batch (.fetching conn slot) pool (batch.unregister slot).2
      (.releasing conn !(batch.unregister slot).1) []
  | fetched {conn : ConnId} {slot : Nat} {item : BatchItem} {items : List BatchItem}
    (found : batch.queue.take depth = item :: items) :
    WorkerMove id depth timeoutMs pool batch (.fetching conn slot) pool
      { batch with queue := batch.queue.drop depth } (.sending conn slot [] (item :: items)) []
  | sent {conn : ConnId} {slot : Nat} {item : BatchItem} {sent todo : List BatchItem} :
    WorkerMove id depth timeoutMs pool batch (.sending conn slot sent (item :: todo)) pool batch
      (WorkerStage.dispatch conn slot (sent ++ [item]) todo)
      [.exchange (some (.item id item.key)) (.send conn item.request.frame) .sent]
  | sendFailed {conn : ConnId} {slot : Nat} {item : BatchItem} {sent todo : List BatchItem}
    {error : Error} :
    WorkerMove id depth timeoutMs pool batch (.sending conn slot sent (item :: todo)) pool batch
      (WorkerStage.await conn slot sent (some error))
      [.exchange (some (.item id item.key)) (.send conn item.request.frame) (.failed error)]
  | received {conn : ConnId} {slot : Nat} {item : BatchItem} {waiting : List BatchItem}
    {sendError : Option Error} {frame : Bytes} :
    WorkerMove id depth timeoutMs pool batch (.receiving conn slot (item :: waiting) sendError)
      pool batch (.received conn slot item frame waiting sendError)
      [.exchange (some (.item id item.key)) (.receive conn) (.received frame)]
  | receiveFailed {conn : ConnId} {slot : Nat} {item : BatchItem} {waiting : List BatchItem}
    {sendError : Option Error} {error : Error} :
    WorkerMove id depth timeoutMs pool batch (.receiving conn slot (item :: waiting) sendError)
      pool batch (.failing conn error)
      [.exchange (some (.item id item.key)) (.receive conn) (.failed error)]
  | panicked {stage : WorkerStage} {conn : ConnId} {operation : Operation} {subject : Subject}
    (holding : (stage.grip id).conn? = some conn) (on_conn : operation.conn? = some conn) :
    WorkerMove id depth timeoutMs pool batch stage (pool.release conn false) batch .abandoned
      (.exchange (some subject) operation .panicked :: pool.giveBackEvents conn false)
  | reported {conn : ConnId} {slot : Nat} {item : BatchItem} {frame : Bytes}
    {waiting : List BatchItem} {sendError : Option Error} :
    WorkerMove id depth timeoutMs pool batch (.received conn slot item frame waiting sendError) pool
      (batch.report (.delivery (WorkerStage.delivery item frame)))
      (WorkerStage.await conn slot waiting sendError) [.decoded (.item id item.key) frame]
  | failed {conn : ConnId} {error : Error} :
    WorkerMove id depth timeoutMs pool batch (.failing conn error) pool
      (batch.report (.failed error)) (.releasing conn true) []
  | released {conn : ConnId} {broken : Bool} :
    WorkerMove id depth timeoutMs pool batch (.releasing conn broken) (pool.release conn broken)
      batch .finished (pool.giveBackEvents conn broken)

section

variable {id depth timeoutMs : Nat} {pool : Pool} {batch : Batch} {stage : WorkerStage}
  {turn : WorkerTurn}

/-- What asking for a connection gives to a worker. -/
theorem WorkerMove.of_acquire (h : WorkerStage.acquire pool batch = some turn) :
    WorkerMove id depth timeoutMs pool batch .acquiring turn.pool turn.batch turn.stage
      (turn.effects.map .effect) := by
  unfold WorkerStage.acquire at h
  split at h
  · rename_i hstopping
    cases h
    exact .gaveUp hstopping
  · rename_i hstopping
    have hgoing := Bool.eq_false_iff.mpr hstopping
    rcases pool.acquire_cases with ⟨conn, idle, notice, hidle, hacquire⟩ |
      ⟨hidle, hroom, hacquire⟩ | ⟨-, -, hacquire⟩
    · rw [hacquire] at h
      cases h
      exact .reused hgoing hidle
    · rw [hacquire] at h
      cases h
      exact .reserved hgoing hidle hroom
    · rw [hacquire] at h
      cases h

/-- **A step of a worker** is one of these moves. -/
theorem WorkerMove.of_advance (h : stage.advance depth pool batch = some turn) :
    WorkerMove id depth timeoutMs pool batch stage turn.pool turn.batch turn.stage
      ((stage.decoding? id).toList.map .ofDecoding ++ turn.effects.map .effect) := by
  cases stage with
  | acquiring => exact .of_acquire h
  | leased conn =>
    simp only [WorkerStage.advance] at h
    split at h
    · cases h
      exact .turnedAway ‹_›
    · cases h
      exact .registered (Bool.eq_false_iff.mpr ‹_›)
  | ready conn slot =>
    simp only [WorkerStage.advance] at h
    split at h
    · cases h
      exact .stopped ‹_›
    · cases h
      exact .wentOn (Bool.eq_false_iff.mpr ‹_›)
  | fetching conn slot =>
    simp only [WorkerStage.advance] at h
    cases hchunk : batch.queue.take depth with
    | nil =>
      rw [hchunk] at h
      cases h
      exact .drained hchunk
    | cons item items =>
      rw [hchunk] at h
      cases h
      exact .fetched hchunk
  | received conn slot item frame waiting sendError =>
    cases h
    exact .reported
  | failing conn error =>
    cases h
    exact .failed
  | releasing conn broken =>
    cases h
    exact .released
  | connecting => cases h
  | sending conn slot sent todo => cases h
  | receiving conn slot waiting sendError => cases h
  | finished => cases h
  | abandoned => cases h

theorem WorkerMove.of_expire {timeoutMs : Nat} (h : stage.expire timeoutMs pool batch = some turn) :
    WorkerMove id depth timeoutMs pool batch stage turn.pool turn.batch turn.stage
      (turn.effects.map .effect) := by
  cases stage with
  | acquiring =>
    simp only [WorkerStage.expire] at h
    cases hacquire : WorkerStage.acquire pool batch with
    | some other =>
      rw [hacquire] at h
      cases h
      exact .of_acquire hacquire
    | none =>
      rw [hacquire] at h
      cases h
      unfold WorkerStage.acquire at hacquire
      split at hacquire
      · cases hacquire
      · rename_i hstopping
        rcases pool.acquire_cases with ⟨conn, idle, notice, -, hpool⟩ | ⟨-, -, hpool⟩ |
          ⟨hidle, hfull, -⟩
        · rw [hpool] at hacquire
          cases hacquire
        · rw [hpool] at hacquire
          cases hacquire
        · exact .timedOut (Bool.eq_false_iff.mpr hstopping) hidle hfull
  | _ => cases h

/-- An answer to a worker is one of these moves. -/
theorem WorkerMove.of_answered {operation : Operation} {answer : Answer}
    (hoperation : stage.operation? = some operation)
    (h : stage.answered pool batch answer = some turn) :
    WorkerMove id depth timeoutMs pool batch stage turn.pool turn.batch turn.stage
      (.exchange (stage.subject? id) operation answer :: turn.effects.map .effect) := by
  cases stage with
  | connecting =>
    cases hoperation
    cases answer with
    | connected =>
      cases h
      exact .connected
    | failed error =>
      cases h
      exact .connectFailed
    | panicked =>
      cases h
      exact .connectPanicked
    | sent => cases h
    | received frame => cases h
  | sending conn slot sent todo =>
    cases todo with
    | nil => cases hoperation
    | cons item todo =>
      cases hoperation
      cases answer with
      | sent =>
        cases h
        exact .sent
      | failed error =>
        cases h
        exact .sendFailed
      | panicked =>
        cases h
        exact .panicked rfl rfl
      | connected => cases h
      | received frame => cases h
  | receiving conn slot waiting sendError =>
    cases waiting with
    | nil => cases hoperation
    | cons item waiting =>
      cases hoperation
      cases answer with
      | received frame =>
        cases h
        exact .received
      | failed error =>
        cases h
        exact .receiveFailed
      | panicked =>
        cases h
        exact .panicked rfl rfl
      | connected => cases h
      | sent => cases h
  | _ => cases hoperation

theorem WorkerStage.grip_await (id : Nat) {conn : ConnId} {slot : Nat} {waiting : List BatchItem}
    {sendError : Option Error} :
    (await conn slot waiting sendError).grip id = .holds conn (some (subjectsOf id waiting)) ∨
      (await conn slot waiting sendError).grip id = .holds conn none := by
  unfold await
  split
  · exact .inl rfl
  · exact .inr rfl
  · exact .inl rfl

theorem WorkerStage.grip_dispatch {conn : ConnId} {slot : Nat} {sent todo : List BatchItem} :
    (dispatch conn slot sent todo).grip id = .holds conn (some (subjectsOf id sent)) := by
  unfold dispatch
  split
  · cases sent <;> rfl
  · rfl

/-- What a move of a worker does with the pool and on its connection. -/
theorem WorkerMove.handling {pool' : Pool} {batch' : Batch} {stage' : WorkerStage}
    {events : List Event}
    (h : WorkerMove id depth timeoutMs pool batch stage pool' batch' stage' events) :
    Handling pool (stage.grip id) events pool' (stage'.grip id) := by
  cases h with
  | reused _ hfound => exact .reuse hfound (by simp [Event.IsQuiet])
  | reserved _ hidle hroom => exact .reserve hidle hroom
  | connected => exact .connected
  | connectFailed => exact .refused (by simp [Event.IsQuiet])
  | connectPanicked => exact .lost
  | turnedAway => exact .condemn (by simp [Event.IsQuiet])
  | stopped => exact .condemn (by simp)
  | @drained conn slot =>
    cases (batch.unregister slot).1 with
    | true => exact .rest (by simp)
    | false => exact .condemn (by simp)
  | @sent conn slot item sent todo =>
    have hgrip : subjectsOf id (sent ++ [item]) = subjectsOf id sent ++ [.item id item.key] :=
      List.map_append
    rw [WorkerStage.grip_dispatch, hgrip]
    exact .sent
  | @sendFailed conn slot item sent todo error =>
    rcases WorkerStage.grip_await id with hgrip | hgrip
    · rw [hgrip]
      exact .failed rfl (.inl rfl)
    · rw [hgrip]
      exact .failed rfl (.inr rfl)
  | received => exact .received
  | receiveFailed => exact .failed rfl (.inr rfl)
  | panicked hholding honConn =>
    cases hgrip : stage.grip id with
    | free | slot =>
      rw [hgrip] at hholding
      cases hholding
    | holds conn owed? =>
      rw [hgrip] at hholding
      cases hholding
      exact .struck honConn
  | @reported conn slot item frame waiting sendError =>
    rcases WorkerStage.grip_await id with hgrip | hgrip
    · rw [hgrip]
      exact .rest (by simp [Event.IsQuiet])
    · rw [hgrip]
      exact .condemn (by simp [Event.IsQuiet])
  | @released conn broken =>
    cases broken with
    | true => exact .gaveBack nofun
    | false => exact .gaveBack fun _ => rfl
  | _ => exact .rest (by simp [Event.IsQuiet])

end

/-! ## 2. Collectors -/

/-- A step of a collector of batch `id`, to a batch, a collector and a number of workers to be
started, with the events that are logged.  `limit` is the number of workers that may be started. -/
inductive CollectorMove (id limit : Nat) (crew : Crew) (batch : Batch) :
    Collector → Batch → Collector → Nat → List Event → Prop
  | refused (started : batch.started = true) {completed : List (String × Datum)}
    {errors : List (String × Error)} :
    CollectorMove id limit crew batch ⟨.entry, completed, errors⟩ batch
      ⟨.finished (.error (.usage .batchExecuted)), completed, errors⟩ 0 []
  | started (unstarted : batch.started = false) {completed : List (String × Datum)}
    {errors : List (String × Error)} :
    CollectorMove id limit crew batch ⟨.entry, completed, errors⟩ { batch with started := true }
      ⟨.launching, completed, errors⟩ 0 []
  | launched {completed : List (String × Datum)} {errors : List (String × Error)}
    {notice : Notice} :
    CollectorMove id limit crew batch ⟨.launching, completed, errors⟩
      { batch with queue := batch.items } ⟨.listening, completed, errors⟩
      (min limit batch.items.length) [.effect (.notice notice)]
  | took {report : Report} {channel : List Report} (found : batch.channel = report :: channel)
    {completed : List (String × Datum)} {errors : List (String × Error)} :
    CollectorMove id limit crew batch ⟨.listening, completed, errors⟩
      { batch with channel := channel } ⟨.inspecting report, completed, errors⟩ 0 []
  | ranDry (empty : batch.channel = []) (ended : crew ≠ .working)
    {completed : List (String × Datum)} {errors : List (String × Error)} :
    CollectorMove id limit crew batch ⟨.listening, completed, errors⟩ batch
      ⟨.joining none, completed, errors⟩ 0 []
  | interrupted (cancelled : batch.cancelled = true) {report : Report}
    {completed : List (String × Datum)} {errors : List (String × Error)} :
    CollectorMove id limit crew batch ⟨.inspecting report, completed, errors⟩ batch
      ⟨.halting .cancelled, completed, errors⟩ 0 []
  | accepted (uncancelled : batch.cancelled = false) {delivery : Delivery}
    {completed : List (String × Datum)} {errors : List (String × Error)} :
    CollectorMove id limit crew batch ⟨.inspecting (.delivery delivery), completed, errors⟩ batch
      ⟨.delivering delivery, completed, errors⟩ 0 []
  | rejected (uncancelled : batch.cancelled = false) {error : Error}
    {completed : List (String × Datum)} {errors : List (String × Error)} :
    CollectorMove id limit crew batch ⟨.inspecting (.failed error), completed, errors⟩ batch
      ⟨.rejecting error, completed, errors⟩ 0 []
  | delivered {delivery : Delivery} {completed : List (String × Datum)}
    {errors : List (String × Error)} :
    CollectorMove id limit crew batch ⟨.delivering delivery, completed, errors⟩ batch
      ((⟨.listening, completed, errors⟩ : Collector).note delivery) 0
      [.effect (.delivered id delivery)]
  | gaveUp {error : Error} {completed : List (String × Datum)} {errors : List (String × Error)} :
    CollectorMove id limit crew batch ⟨.rejecting error, completed, errors⟩ batch
      ⟨.halting (if batch.cancelled then .cancelled else error), completed, errors⟩ 0 []
  | halted {error : Error} {completed : List (String × Datum)} {errors : List (String × Error)} :
    CollectorMove id limit crew batch ⟨.halting error, completed, errors⟩
      { batch with halted := true } ⟨.sweeping error, completed, errors⟩ 0 []
  | swept {error : Error} {completed : List (String × Datum)} {errors : List (String × Error)} :
    CollectorMove id limit crew batch ⟨.sweeping error, completed, errors⟩ batch.sweep
      ⟨.firing batch.registered error, completed, errors⟩ 0 []
  | fired {conn : ConnId} {conns : List ConnId} {error : Error}
    {completed : List (String × Datum)} {errors : List (String × Error)} :
    CollectorMove id limit crew batch ⟨.firing (conn :: conns) error, completed, errors⟩ batch
      ⟨.firing conns error, completed, errors⟩ 0 [.effect (.abort conn)]
  | spent {error : Error} {completed : List (String × Datum)} {errors : List (String × Error)} :
    CollectorMove id limit crew batch ⟨.firing [] error, completed, errors⟩ batch
      ⟨.joining (some error), completed, errors⟩ 0 []
  | joined (ended : crew = .ended) {failure : Option Error} {completed : List (String × Datum)}
    {errors : List (String × Error)} :
    CollectorMove id limit crew batch ⟨.joining failure, completed, errors⟩ batch
      ⟨.joined failure, completed, errors⟩ 0 []
  | abandoned (panicked : crew = .panicked) {failure : Option Error}
    {completed : List (String × Datum)} {errors : List (String × Error)} :
    CollectorMove id limit crew batch ⟨.joining failure, completed, errors⟩ batch
      ⟨.abandoned, completed, errors⟩ 0 []
  | judged {failure : Option Error} {completed : List (String × Datum)}
    {errors : List (String × Error)} :
    CollectorMove id limit crew batch ⟨.joined failure, completed, errors⟩ batch
      ⟨.concluding (failure.or (if batch.cancelled then some .cancelled else none)), completed,
        errors⟩ 0 []
  | concluded {failure : Option Error} {notice : Notice} {collector : Collector}
    (concluding : collector.stage = .concluding failure) {result : BatchEnd}
    (ended : result = collector.batchEnd (failure.or (collector.shortfall? batch))) :
    CollectorMove id limit crew batch collector { batch with halted := true, aborts := [] }
      { collector with stage := .finished (.ok result) } 0
      [.effect (.notice notice), .effect (.concluded id result)]

/-- **A step of a collector** is one of these moves. -/
theorem CollectorMove.of_advance {id limit depth : Nat} {crew : Crew} {batch : Batch}
    {collector : Collector} {turn : CollectorTurn}
    (h : collector.advance id limit depth crew batch = some turn) :
    CollectorMove id limit crew batch collector turn.batch turn.collector turn.hired
      (turn.effects.map .effect) := by
  obtain ⟨stage, completed, errors⟩ := collector
  cases stage with
  | entry =>
    simp only [Collector.advance] at h
    split at h
    · cases h
      exact .refused ‹_›
    · cases h
      exact .started (Bool.eq_false_iff.mpr ‹_›)
  | launching =>
    cases h
    exact .launched
  | listening =>
    simp only [Collector.advance] at h
    cases hchannel : batch.channel with
    | cons report channel =>
      rw [hchannel] at h
      cases h
      exact .took hchannel
    | nil =>
      rw [hchannel] at h
      cases hcrew : crew with
      | working =>
        rw [hcrew] at h
        cases h
      | ended =>
        rw [hcrew] at h
        cases h
        exact .ranDry hchannel (by simp)
      | panicked =>
        rw [hcrew] at h
        cases h
        exact .ranDry hchannel (by simp)
  | inspecting report =>
    simp only [Collector.advance] at h
    split at h
    · cases h
      exact .interrupted ‹_›
    · have huncancelled := Bool.eq_false_iff.mpr ‹_›
      cases report with
      | delivery delivery =>
        cases h
        exact .accepted huncancelled
      | failed error =>
        cases h
        exact .rejected huncancelled
  | delivering delivery =>
    cases h
    exact .delivered
  | rejecting error =>
    cases h
    exact .gaveUp
  | halting error =>
    cases h
    exact .halted
  | sweeping error =>
    cases h
    exact .swept
  | firing conns error =>
    cases conns with
    | nil =>
      cases h
      exact .spent
    | cons conn conns =>
      cases h
      exact .fired
  | joining failure =>
    simp only [Collector.advance] at h
    cases hcrew : crew with
    | working =>
      rw [hcrew] at h
      cases h
    | ended =>
      rw [hcrew] at h
      cases h
      exact .joined rfl
    | panicked =>
      rw [hcrew] at h
      cases h
      exact .abandoned rfl
  | joined failure =>
    cases failure with
    | some error =>
      cases h
      exact .judged
    | none =>
      cases h
      exact .judged
  | concluding failure =>
    cases h
    exact .concluded rfl rfl
  | finished result => cases h
  | abandoned => cases h

/-! ## 3. Cancellations -/

/-- A step of a cancellation of a batch. -/
inductive StopMove (batch : Batch) : StopStage → Batch → StopStage → List Event → Prop
  | flagged : StopMove batch .entry { batch with cancelled := true } .flagged []
  | swept : StopMove batch .flagged batch.sweep (.firing batch.registered) []
  | fired {conn : ConnId} {conns : List ConnId} :
    StopMove batch (.firing (conn :: conns)) batch (.firing conns) [.effect (.abort conn)]

theorem StopMove.of_advance {batch batch' : Batch} {stage stage' : StopStage}
    {effects : List Effect} (h : stage.advance batch = some (batch', stage', effects)) :
    StopMove batch stage batch' stage' (effects.map .effect) := by
  cases stage with
  | entry =>
    cases h
    exact .flagged
  | flagged =>
    cases h
    exact .swept
  | firing conns =>
    cases conns with
    | nil => cases h
    | cons conn conns =>
      cases h
      exact .fired

end RemoteCall.Client
