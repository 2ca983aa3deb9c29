/-
# What a step of a call does

The steps of an execution are functions of its stage, with one case for each stage and each answer.
Here each case has a name: `CallMove` says what the step does to the stage, to the call, to the pool
and to the log.  `CallMove.of_advance`, `of_expire` and `of_answered` say that these are all the
steps there are, so that no later proof opens the step functions again.  `CancelMove` does the same
for a cancellation.
-/
import RemoteCall.Proofs.Client.Moves.Holding

namespace RemoteCall.Client

/-! ## 1. Executions -/

/-- A step of an execution of call `id`, from a stage to a pool, a call and a stage, with the events
that are logged. -/
inductive CallMove (id : Nat) (pool : Pool) (call : Call) :
    CallStage → Pool → Call → CallStage → List Event → Prop
  | refused (executed : call.executed = true) :
    CallMove id pool call .entry pool call
      (.finished (.error (.usage (.callExecuted call.request.method)))) []
  | admitted (unexecuted : call.executed = false) :
    CallMove id pool call .entry pool { call with executed := true } .admitted []
  | forestalled (cancelled : call.isCancelled = true) :
    CallMove id pool call .admitted pool call (.settling (.error .cancelled)) []
  | queued (uncancelled : call.isCancelled = false) :
    CallMove id pool call .admitted pool call .acquiring []
  | gaveUp (cancelled : call.isCancelled = true) :
    CallMove id pool call .acquiring pool call (.settling (.error .cancelled)) []
  | timedOut (uncancelled : call.isCancelled = false) {timeoutMs : Nat}
    (none_idle : pool.idle = []) (full : pool.limit ≤ pool.leased) :
    CallMove id pool call .acquiring pool call (.settling (.error (.poolTimeout timeoutMs))) []
  | reused (uncancelled : call.isCancelled = false) {conn : ConnId} {idle : List ConnId}
    (found : pool.idle = conn :: idle) {notice : Notice} :
    CallMove id pool call .acquiring { pool with idle := idle, leased := pool.leased + 1 } call
      (.leased conn) [.effect (.notice notice)]
  | reserved (uncancelled : call.isCancelled = false) (none_idle : pool.idle = [])
    (room : pool.leased < pool.limit) :
    CallMove id pool call .acquiring { pool with leased := pool.leased + 1 } call .connecting []
  | connected :
    CallMove id pool call .connecting { pool with opened := pool.opened + 1 } call
      (.leased (pool.opened + 1)) [.exchange none .connect .connected]
  | connectFailed {error : Error} {notice : Notice} :
    CallMove id pool call .connecting pool.connectFailed call (.settling (.error error))
      [.exchange none .connect (.failed error), .effect (.notice notice)]
  | connectPanicked :
    CallMove id pool call .connecting pool call .abandoned [.exchange none .connect .panicked]
  | registered {conn : ConnId} :
    CallMove id pool call (.leased conn) pool { call with abort := some conn } (.registered conn) []
  | interrupted (cancelled : call.isCancelled = true) {conn : ConnId} :
    CallMove id pool call (.registered conn) pool call (.releasing conn true (.error .cancelled)) []
  | dispatched (uncancelled : call.isCancelled = false) {conn : ConnId} {notice : Notice} :
    CallMove id pool call (.registered conn) pool call (.sending conn) [.effect (.notice notice)]
  | sent {conn : ConnId} :
    CallMove id pool call (.sending conn) pool call (.receiving conn)
      [.exchange (some (.call id)) (.send conn call.request.frame) .sent]
  | sendFailed {conn : ConnId} {error : Error} :
    CallMove id pool call (.sending conn) pool call (.exchanged conn (.error error))
      [.exchange (some (.call id)) (.send conn call.request.frame) (.failed error)]
  | received {conn : ConnId} {frame : Bytes} :
    CallMove id pool call (.receiving conn) pool call (.exchanged conn (.ok frame))
      [.exchange (some (.call id)) (.receive conn) (.received frame)]
  | receiveFailed {conn : ConnId} {error : Error} :
    CallMove id pool call (.receiving conn) pool call (.exchanged conn (.error error))
      [.exchange (some (.call id)) (.receive conn) (.failed error)]
  | panicked {stage : CallStage} {conn : ConnId} {operation : Operation}
    (holding : (stage.grip id).conn? = some conn) (on_conn : operation.conn? = some conn) :
    CallMove id pool call stage (pool.release conn false) call .abandoned
      (.exchange (some (.call id)) operation .panicked :: pool.giveBackEvents conn false)
  | withdrawn {conn : ConnId} {result : Except Error Bytes} :
    CallMove id pool call (.exchanged conn result) pool { call with abort := none }
      (.withdrawn conn result) []
  | beaten (cancelled : call.isCancelled = true) {conn : ConnId} {result : Except Error Bytes} :
    CallMove id pool call (.withdrawn conn result) pool call
      (.releasing conn true (.error .cancelled)) []
  | succeeded (uncancelled : call.isCancelled = false) {conn : ConnId} {frame : Bytes} :
    CallMove id pool call (.withdrawn conn (.ok frame)) pool { call with phase := .completed }
      (.releasing conn false (.ok frame)) []
  | failed (uncancelled : call.isCancelled = false) {conn : ConnId} {error : Error}
    {notice : Notice} :
    CallMove id pool call (.withdrawn conn (.error error)) pool { call with phase := .completed }
      (.releasing conn true (.error error)) [.effect (.notice notice)]
  | released {conn : ConnId} {broken : Bool} {result : Except Error Bytes} :
    CallMove id pool call (.releasing conn broken result) (pool.release conn broken) call
      (.settling result) (pool.giveBackEvents conn broken)
  | discarded (cancelled : call.isCancelled = true) {result : Except Error Bytes} :
    CallMove id pool call (.settling result) pool call (.finished (.error .cancelled)) []
  | decoded (uncancelled : call.isCancelled = false) {frame : Bytes} :
    CallMove id pool call (.settling (.ok frame)) pool { call with phase := .completed }
      (.finished (Response.decodeWith call.decoder frame)) [.decoded (.call id) frame]
  | reported (uncancelled : call.isCancelled = false) {error : Error} :
    CallMove id pool call (.settling (.error error)) pool { call with phase := .completed }
      (.finished (.error error)) []

theorem Call.complete_of_cancelled {call : Call} (h : call.isCancelled = true) :
    call.complete = (false, call) := by
  unfold Call.isCancelled at h
  unfold Call.complete
  rw [beq_iff_eq.mp h]

theorem Call.complete_of_uncancelled {call : Call} (h : call.isCancelled = false) :
    call.complete = (true, { call with phase := .completed }) := by
  obtain ⟨request, decoder, executed, phase, abort⟩ := call
  cases phase with
  | pending => rfl
  | completed => rfl
  | cancelled => cases h

section

variable {id : Nat} {pool : Pool} {call : Call} {stage : CallStage} {turn : CallTurn}

/-- What asking for a connection gives to an execution. -/
theorem CallMove.of_acquire (h : CallStage.acquire pool call = some turn) :
    CallMove id pool call .acquiring turn.pool turn.call turn.stage (turn.effects.map .effect) := by
  unfold CallStage.acquire at h
  split at h
  · rename_i hcancelled
    cases h
    exact .gaveUp hcancelled
  · rename_i hcancelled
    have huncancelled := Bool.eq_false_iff.mpr hcancelled
    rcases pool.acquire_cases with ⟨conn, idle, notice, hidle, hacquire⟩ |
      ⟨hidle, hroom, hacquire⟩ | ⟨-, -, hacquire⟩
    · rw [hacquire] at h
      cases h
      exact .reused huncancelled hidle
    · rw [hacquire] at h
      cases h
      exact .reserved huncancelled hidle hroom
    · rw [hacquire] at h
      cases h

/-- **A step of an execution** is one of these moves. -/
theorem CallMove.of_advance (h : stage.advance pool call = some turn) :
    CallMove id pool call stage turn.pool turn.call turn.stage
      ((stage.decoding? id call).toList.map .ofDecoding ++ turn.effects.map .effect) := by
  cases stage with
  | entry =>
    simp only [CallStage.advance] at h
    split at h
    · cases h
      exact .refused ‹_›
    · cases h
      exact .admitted (Bool.eq_false_iff.mpr ‹_›)
  | admitted =>
    simp only [CallStage.advance] at h
    split at h
    · cases h
      exact .forestalled ‹_›
    · cases h
      exact .queued (Bool.eq_false_iff.mpr ‹_›)
  | acquiring => exact .of_acquire h
  | leased conn =>
    cases h
    exact .registered
  | registered conn =>
    simp only [CallStage.advance] at h
    split at h
    · cases h
      exact .interrupted ‹_›
    · cases h
      exact .dispatched (Bool.eq_false_iff.mpr ‹_›)
  | exchanged conn result =>
    cases h
    exact .withdrawn
  | withdrawn conn result =>
    simp only [CallStage.advance] at h
    cases hcancelled : call.isCancelled with
    | true =>
      rw [Call.complete_of_cancelled hcancelled] at h
      cases h
      exact .beaten hcancelled
    | false =>
      rw [Call.complete_of_uncancelled hcancelled] at h
      cases result with
      | ok frame =>
        cases h
        exact .succeeded hcancelled
      | error error =>
        cases h
        exact .failed hcancelled
  | releasing conn broken result =>
    cases h
    exact .released
  | settling result =>
    simp only [CallStage.advance] at h
    cases hcancelled : call.isCancelled with
    | true =>
      rw [Call.complete_of_cancelled hcancelled] at h
      cases h
      cases result with
      | ok frame =>
        simp only [CallStage.decoding?, hcancelled]
        exact .discarded hcancelled
      | error error => exact .discarded hcancelled
    | false =>
      rw [Call.complete_of_uncancelled hcancelled] at h
      cases h
      cases result with
      | ok frame =>
        simp only [CallStage.decoding?, hcancelled]
        exact .decoded hcancelled
      | error error => exact .reported hcancelled
  | connecting => cases h
  | sending conn => cases h
  | receiving conn => cases h
  | finished result => cases h
  | abandoned => cases h

theorem CallMove.of_expire {timeoutMs : Nat} (h : stage.expire timeoutMs pool call = some turn) :
    CallMove id pool call stage turn.pool turn.call turn.stage (turn.effects.map .effect) := by
  cases stage with
  | acquiring =>
    simp only [CallStage.expire] at h
    cases hacquire : CallStage.acquire pool call with
    | some other =>
      rw [hacquire] at h
      cases h
      exact .of_acquire hacquire
    | none =>
      rw [hacquire] at h
      cases h
      unfold CallStage.acquire at hacquire
      split at hacquire
      · cases hacquire
      · rename_i hcancelled
        rcases pool.acquire_cases with ⟨conn, idle, notice, -, hpool⟩ | ⟨-, -, hpool⟩ |
          ⟨hidle, hfull, -⟩
        · rw [hpool] at hacquire
          cases hacquire
        · rw [hpool] at hacquire
          cases hacquire
        · exact .timedOut (Bool.eq_false_iff.mpr hcancelled) hidle hfull
  | _ => cases h

/-- An answer to an execution is one of these moves. -/
theorem CallMove.of_answered {operation : Operation} {answer : Answer}
    (hoperation : stage.operation? call = some operation)
    (h : stage.answered pool call answer = some turn) :
    CallMove id pool call stage turn.pool turn.call turn.stage
      (.exchange (stage.subject? id) operation answer :: turn.effects.map .effect) := by
  cases stage with
  | connecting =>
    cases hoperation
    cases answer with
    | connected =>
      cases h
      exact .connected
    | failed error =>
      cases h
      exact .connectFailed
    | panicked =>
      cases h
      exact .connectPanicked
    | sent => cases h
    | received frame => cases h
  | sending conn =>
    cases hoperation
    cases answer with
    | sent =>
      cases h
      exact .sent
    | failed error =>
      cases h
      exact .sendFailed
    | panicked =>
      cases h
      exact .panicked rfl rfl
    | connected => cases h
    | received frame => cases h
  | receiving conn =>
    cases hoperation
    cases answer with
    | received frame =>
      cases h
      exact .received
    | failed error =>
      cases h
      exact .receiveFailed
    | panicked =>
      cases h
      exact .panicked rfl rfl
    | connected => cases h
    | sent => cases h
  | _ => cases hoperation

/-- What a move of an execution does with the pool and on its connection. -/
theorem CallMove.handling {pool' : Pool} {call' : Call} {stage' : CallStage} {events : List Event}
    (h : CallMove id pool call stage pool' call' stage' events) :
    Handling pool (stage.grip id) events pool' (stage'.grip id) := by
  cases h with
  | reused _ hfound => exact .reuse hfound (by simp [Event.IsQuiet])
  | reserved _ hidle hroom => exact .reserve hidle hroom
  | connected => exact .connected
  | connectFailed => exact .refused (by simp [Event.IsQuiet])
  | connectPanicked => exact .lost
  | interrupted => exact .condemn (by simp)
  | sent => exact .sent
  | sendFailed => exact .failed rfl (.inr rfl)
  | received => exact .received
  | receiveFailed => exact .failed rfl (.inr rfl)
  | panicked hholding honConn =>
    cases hgrip : stage.grip id with
    | free | slot =>
      rw [hgrip] at hholding
      cases hholding
    | holds conn owed? =>
      rw [hgrip] at hholding
      cases hholding
      exact .struck honConn
  | @withdrawn conn result => cases result <;> exact .rest (by simp)
  | @beaten _ conn result => cases result <;> exact .condemn (by simp)
  | @released conn broken result =>
    cases broken with
    | true => exact .gaveBack nofun
    | false => exact .gaveBack fun _ => rfl
  | _ => exact .rest (by simp [Event.IsQuiet])

/-- An execution that is over takes no step. -/
theorem CallMove.not_over {pool' : Pool} {call' : Call} {stage' : CallStage} {events : List Event}
    (h : CallMove id pool call stage pool' call' stage' events) : stage.isOver = false := by
  cases h with
  | panicked hholding =>
    cases stage with
    | finished | abandoned => cases hholding
    | _ => rfl
  | _ => rfl

end

/-! ## 2. Cancellations -/

/-- A step of a cancellation of a call. -/
inductive CancelMove (call : Call) : CancelStage → Call → CancelStage → List Event → Prop
  | won (pending : call.phase = .pending) :
    CancelMove call .entry { call with phase := .cancelled } .claimed []
  | lost (settled : call.phase ≠ .pending) : CancelMove call .entry call .done []
  | fired {conn : ConnId} (found : call.abort = some conn) :
    CancelMove call .claimed { call with abort := none } .done [.effect (.abort conn)]
  | spared (missing : call.abort = none) : CancelMove call .claimed call .done []

theorem CancelMove.of_advance {call call' : Call} {stage stage' : CancelStage}
    {effects : List Effect} (h : stage.advance call = some (call', stage', effects)) :
    CancelMove call stage call' stage' (effects.map .effect) := by
  cases stage with
  | entry =>
    simp only [CancelStage.advance, Call.cancel] at h
    cases hphase : call.phase with
    | pending =>
      rw [hphase] at h
      cases h
      exact .won hphase
    | cancelled =>
      rw [hphase] at h
      cases h
      exact .lost (by simp [hphase])
    | completed =>
      rw [hphase] at h
      cases h
      exact .lost (by simp [hphase])
  | claimed =>
    simp only [CancelStage.advance] at h
    cases habort : call.abort with
    | some conn =>
      rw [habort] at h
      cases h
      exact .fired habort
    | none =>
      rw [habort] at h
      cases h
      exact .spared habort
  | done => cases h

end RemoteCall.Client
