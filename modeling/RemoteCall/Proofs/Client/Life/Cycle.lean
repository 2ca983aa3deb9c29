/-
# The life of a call

A call can be executed and cancelled any number of times, from any number of tasks.  `LivesOnce`
says what comes of that in every run: the call is settled once, by the cancellation that wins or by
the execution that completes it; the first execution to begin returns what fits that, and the others
are refused; its request is sent once at most, its abort handle fires once at most, and whatever it
hits is discarded; and a clone knows nothing of it.

The parts are from `Execution` (what executions return), `Requesting` (what is sent), `Cancellation`
(phases and aborts) and `Cloning`.  An endpoint that panics leaves the execution that asked it
without a result, and gives its connection back as it is; of such a connection nothing is said.
-/
import RemoteCall.Proofs.Client.Life.Cancellation
import RemoteCall.Proofs.Client.Life.Cloning
import RemoteCall.Proofs.Client.Life.Execution

namespace RemoteCall.Client

namespace Run

variable {config : Config} {run : Run config} {i : TaskId} {id n k : Nat} {stage : CallStage}
  {result : Except Error Datum} {conn : ConnId}

/-! ## 1. What executions return -/

/-- Task `i` has returned a result of call `id`. -/
def Returned (run : Run config) (i : TaskId) (id n : Nat) (result : Except Error Datum) : Prop :=
  (run.world n).machine.tasks[i]? = some (.executing id (.finished result))

/-- Of the executions of a call one is the first to begin. -/
theorem Begins.begun {m : Nat} (h : run.Begins i id n) (hnm : n < m) : ¬ run.Unbegun id m := by
  intro hunbegun
  rcases execution_next h.entry with ⟨hrests, -⟩ | ⟨-, _, _, _, stage', _, -, hmove, hnext, -⟩
  · exact absurd h.moves hrests
  · have htask : (run.world (n + 1)).machine.tasks[i]? = some (.executing id stage') := by
      rw [hnext]
      exact List.getElem?_set_self (List.getElem?_eq_some_iff.mp h.entry).1
    obtain ⟨stage, hlater, hle⟩ := effort_later hnm htask
    have heffort := hmove.effort_lt
    rw [hunbegun stage (List.mem_of_getElem? hlater)] at hle
    omega

/-- What lies behind the first execution at each of its stages. -/
theorem Begins.tells (h : run.Begins i id n) (hfirst : run.Unbegun id n)
    (htask : (run.world (n + k)).machine.tasks[i]? = some (.executing id stage)) :
    ∃ call, (run.world (n + k)).machine.calls[id]? = some call ∧
      stage.Tells config.acquireTimeoutMs call (run.operations i n k) := by
  cases k with
  | zero =>
    cases h.entry.symm.trans htask
    have hid := (run.reachable n).marked.known _ (List.mem_of_getElem? h.entry) id rfl
    exact ⟨_, List.getElem?_eq_getElem hid, rfl⟩
  | succ k =>
    obtain ⟨other, call, hleads⟩ := h.leads hfirst k
    cases hleads.task_eq.symm.trans htask
    exact ⟨call, hleads.found, hleads.tells⟩

/-- The first execution is cancelled exactly if a cancellation has won, unless the endpoint itself
fails with a cancellation. -/
theorem Begins.cancelled_iff (h : run.Begins i id n) (hfirst : run.Unbegun id n)
    (hreturned : run.Returned i id (n + k) result)
    (hendpoint : ∀ operation error, (operation, .failed error) ∈ run.operations i n k →
      error.isCancelled = false) :
    (∃ error, result = .error error ∧ error.isCancelled = true) ↔
      ∃ m < n + k, run.CancelWins id m := by
  obtain ⟨call, hfound, hends⟩ := h.tells hfirst hreturned
  have hphase : run.phase? id (n + k) = some call.phase := by
    rw [phase?, hfound, Option.map_some]
  rw [Call.Ends.cancelled_iff hends hendpoint, ← Run.cancelled_iff, hphase, Option.some_inj]

/-- **The first execution returns**, if it gets its turns and the endpoint does not panic. -/
theorem Begins.returns (h : run.Begins i id n) (hfirst : run.Unbegun id n) (hfair : run.FairTo i)
    (hsound : ∀ k operation, (operation, .panicked) ∉ run.operations i n k) :
    ∃ k result, run.Returned i id (n + k) result := by
  obtain ⟨m, stage, hnm, htask, hover⟩ := hfair.over h.entry
  obtain ⟨k, rfl⟩ := Nat.exists_eq_add_of_le hnm
  obtain ⟨call, hfound, htells⟩ := h.tells hfirst htask
  cases stage with
  | finished result => exact ⟨k, result, htask⟩
  | abandoned =>
    obtain ⟨operation, hpanicked⟩ := htells
    exact absurd hpanicked (hsound k operation)
  | _ => cases hover

/-! ## 2. Every call -/

/-- Call `id` is settled, executed, sent and aborted once at most. -/
structure LivesOnce (run : Run config) (id : Nat) : Prop where
  /-- A phase that is not pending never changes again. -/
  phase_stays : ∀ n m phase, n ≤ m → run.phase? id n = some phase → phase ≠ .pending →
    run.phase? id m = some phase
  /-- The phase is left when a cancellation wins or an execution completes the call. -/
  phase_next : ∀ n phase, run.phase? id n = some phase →
    run.phase? id (n + 1) = some phase ∨ run.CancelWins id n ∨ run.Completes id n
  /-- One execution is the first to begin. -/
  begun : ∀ i n m, run.Begins i id n → n < m → ¬ run.Unbegun id m
  /-- The first execution returns that it was cancelled, or what comes of its own exchange. -/
  first : ∀ i n k result, run.Begins i id n → run.Unbegun id n →
    run.Returned i id (n + k) result → ∃ call, (run.world (n + k)).machine.calls[id]? = some call ∧
      call.Ends config.acquireTimeoutMs (run.operations i n k) result
  /-- It returns that it was cancelled exactly if a cancellation has won, unless the endpoint fails
  with a cancellation. -/
  cancelled : ∀ i n k result, run.Begins i id n → run.Unbegun id n →
    run.Returned i id (n + k) result →
    (∀ operation error, (operation, .failed error) ∈ run.operations i n k →
      error.isCancelled = false) →
    ((∃ error, result = .error error ∧ error.isCancelled = true) ↔
      ∃ m < n + k, run.CancelWins id m)
  /-- It does return, if it gets its turns and the endpoint does not panic. -/
  returns : ∀ i n, run.Begins i id n → run.Unbegun id n → run.FairTo i →
    (∀ k operation, (operation, .panicked) ∉ run.operations i n k) →
    ∃ k result, run.Returned i id (n + k) result
  /-- Every other execution is refused in its only step, which leaves everything else as it was. -/
  others : ∀ i n, run.Begins i id n → ¬ run.Unbegun id n →
    ∃ call, (run.world n).machine.calls[id]? = some call ∧
      run.world (n + 1) = ⟨{ (run.world n).machine with
        tasks := (run.world n).machine.tasks.set i
          (.executing id (.finished (.error (.usage (.callExecuted call.request.method))))) },
        (run.world n).log⟩ ∧
      ∀ m > n, run.Returned i id m (.error (.usage (.callExecuted call.request.method))) ∧
        run.place? m ≠ some i
  /-- The endpoint is asked at most once to take the request of the call. -/
  requests : ∀ n call, (run.world n).machine.calls[id]? = some call →
    (run.world n).log.requestsFor (.call id) = [] ∨
      (run.world n).log.requestsFor (.call id) = [call.request.frame]
  /-- It is never asked if the call was cancelled before a connection was leased. -/
  unsent : ∀ n, run.CancelWins id n → run.Unleased id n →
    ∀ m, (run.world m).log.requestsFor (.call id) = []
  /-- The abort handle fires once at most, and only if the call is cancelled. -/
  aborts : ∀ n, (run.abortsOf id n).length ≤ if run.phase? id n = some .cancelled then 1 else 0
  /-- A connection that it hits is not used again: it stays with an execution of the call until it
  is closed. -/
  discarded : ∀ n, ∀ conn ∈ run.abortsOf id n, ¬ (run.world n).log.Struck conn →
    conn ∉ (run.world n).machine.pool.idle ∧ (run.world n).Retains id conn
  /-- A clone begins anew, and stays so until it is used itself. -/
  cloned : ∀ n, run.label? n = some (.order (.cloneCall id)) →
    ∃ call, (run.world n).machine.calls[id]? = some call ∧
      run.world (n + 1) = ⟨{ (run.world n).machine with
        calls := (run.world n).machine.calls ++ [call.clone] }, (run.world n).log⟩ ∧
      ∀ m > n, run.Unused (run.world n).machine.calls.length m →
        (run.world m).machine.calls[(run.world n).machine.calls.length]? = some call.clone ∧
          (run.world m).log.requestsFor (.call (run.world n).machine.calls.length) = []
  /-- The tasks of other calls, those of its clones among them, leave the call as it is. -/
  apart : ∀ n call, (∀ mover ∈ run.mover? n, mover.call? ≠ some id) →
    (run.world n).machine.calls[id]? = some call →
    (run.world (n + 1)).machine.calls[id]? = some call

theorem aborts_le : (run.abortsOf id n).length ≤
    if run.phase? id n = some .cancelled then 1 else 0 := by
  have hle := run.abortsOf_length_le id n
  have hcancelled : ((run.world n).machine.isCancelled id).toNat =
      if run.phase? id n = some .cancelled then 1 else 0 := by
    unfold phase? Machine.isCancelled
    cases (run.world n).machine.calls[id]? with
    | none => rfl
    | some call => cases hphase : call.phase <;> simp [Call.isCancelled, hphase]
  omega

/-- What an abort hits is not idle. -/
theorem busy_of_abort (hconn : conn ∈ run.abortsOf id n)
    (hunstruck : ¬ (run.world n).log.Struck conn) : conn ∉ (run.world n).machine.pool.idle := by
  intro hidle
  obtain ⟨-, -, hunaborted⟩ := (run.reachable n).idle_level hidle hunstruck
  exact hunaborted (retains_of_abort hconn hunstruck).1

theorem Begins.others_refused (h : run.Begins i id n) (hother : ¬ run.Unbegun id n) :
    ∃ call, (run.world n).machine.calls[id]? = some call ∧
      run.world (n + 1) = ⟨{ (run.world n).machine with
        tasks := (run.world n).machine.tasks.set i
          (.executing id (.finished (.error (.usage (.callExecuted call.request.method))))) },
        (run.world n).log⟩ ∧
      ∀ m > n, run.Returned i id m (.error (.usage (.callExecuted call.request.method))) ∧
        run.place? m ≠ some i := by
  have hid := (run.reachable n).marked.known _ (List.mem_of_getElem? h.entry) id rfl
  have hfound := List.getElem?_eq_getElem hid
  have hrefused := h.refused hother hfound
  refine ⟨_, hfound, hrefused, fun m hm => over_stays hm ?_ rfl⟩
  rw [hrefused]
  exact List.getElem?_set_self (List.getElem?_eq_some_iff.mp h.entry).1

/-- **Every call lives once**, however executions, cancellations and the answers of the endpoint
follow each other. -/
theorem calls_live_once (run : Run config) (id : Nat) : run.LivesOnce id where
  phase_stays n m phase hnm hphase hleft := Run.phase_stays hnm hphase hleft
  phase_next n phase hphase := Run.phase_next hphase
  begun i n m hbegins hnm := hbegins.begun hnm
  first i n k result hbegins hfirst hreturned := hbegins.tells hfirst hreturned
  cancelled i n k result hbegins hfirst hreturned hendpoint :=
    hbegins.cancelled_iff hfirst hreturned hendpoint
  returns i n hbegins hfirst hfair hsound := hbegins.returns hfirst hfair hsound
  others i n hbegins hother := hbegins.others_refused hother
  requests n call hfound := (run.reachable n).requests_eq hfound
  unsent n hwins hunleased m := by
    refine hunleased.unsent ?_
    obtain ⟨call, hcall, hphase⟩ := Option.map_eq_some_iff.mp hwins.cancelled
    exact ⟨call, hcall, beq_iff_eq.mpr hphase⟩
  aborts n := aborts_le
  discarded n conn hconn hunstruck :=
    ⟨busy_of_abort hconn hunstruck, (retains_of_abort hconn hunstruck).2⟩
  cloned n horder := by
    obtain ⟨call, hfound, hnext⟩ := Run.cloned horder
    refine ⟨call, hfound, hnext, fun m hm hunused => hunused.untouched hm ?_⟩
    rw [hnext]
    exact List.getElem?_concat_length
  apart n call hother hfound := by
    rcases run.moves n with ⟨-, hsame⟩ | ⟨hstep, -⟩
    · rw [hsame]
      exact hfound
    · exact hstep.apart hother hfound

/-! ## 3. A race -/

/-- A call is executed twice, cloned, and cancelled while its request is on the way. -/
def race : List Label :=
  [.order (.newCall ⟨"Ping", [7], none⟩ ⟨[], .string⟩), .order (.execute 0), .order (.cancel 0),
    .order (.execute 0), .order (.cloneCall 0), .advance 0, .advance 0, .advance 0,
    .answer 0 .connected, .advance 0, .advance 0, .advance 2, .answer 0 .sent, .advance 1,
    .advance 1, .answer 0 (.failed (.io "aborted")), .advance 0, .advance 0, .advance 0, .advance 0]

theorem race_possible : ((World.new {}).after race).isSome = true := by decide

/-- The cancellation wins: the first execution returns that it was cancelled, and the connection
that was aborted is closed. -/
theorem calls_live_once_race : ∃ run : Run {}, run.Begins 0 0 5 ∧ run.Unbegun 0 5 ∧
    run.CancelWins 0 13 ∧ run.Returned 0 0 20 (.error .cancelled) ∧
      run.Returned 2 0 20 (.error (.usage (.callExecuted "Ping"))) ∧
      run.abortsOf 0 20 = [1] ∧ (run.world 20).log.closed = [1] ∧ run.LivesOnce 0 := by
  refine ⟨Run.ofLabels {} race race_possible, ⟨rfl, rfl⟩, ?_, ⟨rfl, rfl, rfl⟩, rfl, rfl, rfl, rfl,
    calls_live_once _ 0⟩
  intro stage hmem
  have htasks : ((Run.ofLabels {} race race_possible).world 5).machine.tasks =
      [.executing 0 .entry, .cancelling 0 .entry, .executing 0 .entry] := rfl
  rw [htasks] at hmem
  simpa using hmem

end Run

end RemoteCall.Client
