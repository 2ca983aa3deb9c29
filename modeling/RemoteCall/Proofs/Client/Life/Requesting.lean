/-
# How often a request is sent

The endpoint is asked to take the request of a call at most once, whatever it answers
(`World.Reachable.requests_le`): while an execution still may send, nothing has been sent, and there
is one such execution at most.

If a call is cancelled before it has a connection, the endpoint is not asked at all (`Run.unsent`),
for an execution that has a connection looks at the phase of its call before it sends.
-/
import RemoteCall.Proofs.Client.Life.Steps

namespace RemoteCall.Client

/-! ## 1. Requests in a step -/

/-- The request for a call or an item that the endpoint is asked to take. -/
def Subject.request? (subject : Subject) : Option Subject × Operation × Answer → Option Bytes
  | (some other, .send _ frame, _) => if other = subject then some frame else none
  | _ => none

/-- The requests that the endpoint was asked to take for a call or an item, whatever it answered. -/
def Log.requestsFor (log : Log) (subject : Subject) : List Bytes :=
  log.exchanges.filterMap subject.request?

/-- Whether an execution is about to send its request. -/
def CallStage.isSending : CallStage → Bool
  | sending _ => true
  | _ => false

/-- Whether an execution has begun and may still send its request. -/
def CallStage.maySend : CallStage → Bool
  | admitted | acquiring | connecting | leased _ | registered _ | sending _ => true
  | _ => false

/-- Whether a task is about to send the request of call `id`. -/
def Task.isSending (id : Nat) : Task → Bool
  | .executing other stage => other == id && stage.isSending
  | _ => false

/-- Whether a task executes call `id` and may still send its request. -/
def Task.maySend (id : Nat) : Task → Bool
  | .executing other stage => other == id && stage.maySend
  | _ => false

section

variable {world next : World} {label : Label} {id : Nat} {stage stage' : CallStage}
  {machine machine' : Machine} {mover? : Option Task} {pool pool' : Pool} {call call' : Call}
  {log events : Log}

theorem World.requests_step (h : world.step label = some next) (subject : Subject) :
    next.log.requestsFor subject =
      world.log.requestsFor subject ++ ((world.exchange? label).bind subject.request?).toList := by
  unfold Log.requestsFor
  rw [World.exchanges_step h, List.filterMap_append]
  congr 1
  cases world.exchange? label with
  | none => rfl
  | some exchange =>
    rw [Option.toList_some, List.filterMap_cons, List.filterMap_nil, Option.bind_some]
    cases subject.request? exchange <;> rfl

theorem Subject.send_of_request? {subject : Subject} {exchange : Option Subject × Operation × Answer}
    {frame : Bytes} (h : subject.request? exchange = some frame) :
    ∃ conn answer, exchange = (some subject, .send conn frame, answer) := by
  unfold request? at h
  split at h
  · split at h
    · cases h
      rename_i hself
      exact ⟨_, _, by rw [hself]⟩
    · cases h
  · cases h

theorem WorkerStage.subject?_ne_call (stage : WorkerStage) (batch id : Nat) :
    stage.subject? batch ≠ some (.call id) := by
  unfold subject?
  split <;> simp

/-- Who asks for a request of a call is an execution of the call that is about to send it. -/
theorem Machine.sending_of_operation {i : TaskId} {conn : ConnId} {frame : Bytes}
    (hoperation : machine.operation? i = some (.send conn frame))
    (hsubject : machine.subject? i = some (.call id)) :
    machine.tasks[i]? = some (.executing id (.sending conn)) ∧
      ∃ call, machine.calls[id]? = some call ∧ frame = call.request.frame := by
  unfold operation? at hoperation
  unfold subject? at hsubject
  cases htask : machine.tasks[i]? with
  | none =>
    rw [htask] at hoperation
    cases hoperation
  | some task =>
    rw [htask] at hoperation hsubject
    cases task with
    | executing other stage =>
      obtain ⟨call, hcall, hoperation⟩ := Option.bind_eq_some_iff.mp hoperation
      cases stage with
      | sending =>
        cases hoperation
        cases hsubject
        exact ⟨rfl, call, hcall, rfl⟩
      | connecting | receiving => cases hoperation
      | _ => cases hsubject
    | working batch stage => exact absurd hsubject (stage.subject?_ne_call batch id)
    | _ => cases hoperation

/-- **A request is asked for by the execution that is about to send it.** -/
theorem World.sending_of_request {frame : Bytes}
    (h : (world.exchange? label).bind (Subject.call id).request? = some frame) :
    (label.task?.bind (world.machine.tasks[·]?)).any (Task.isSending id) = true ∧
      ∃ call, world.machine.calls[id]? = some call ∧ frame = call.request.frame := by
  obtain ⟨exchange, hexchange, hrequest⟩ := Option.bind_eq_some_iff.mp h
  obtain ⟨conn, answer, rfl⟩ := Subject.send_of_request? hrequest
  cases label with
  | order | advance | expire => cases hexchange
  | answer i reply =>
    obtain ⟨operation, hoperation, heq⟩ := Option.map_eq_some_iff.mp hexchange
    obtain ⟨hsubject, rfl, -⟩ : world.machine.subject? i = some (.call id) ∧
        operation = .send conn frame ∧ reply = answer := by simpa using heq
    obtain ⟨htask, hcall⟩ := Machine.sending_of_operation hoperation hsubject
    refine ⟨?_, hcall⟩
    simp [Label.task?, htask, Task.isSending, CallStage.isSending]

/-! ## 2. One request -/

/-- An execution may send from its beginning until it sends. -/
theorem CallMove.maySend_le (h : CallMove id pool call stage pool' call' stage' events) :
    stage'.maySend.toNat + stage.isSending.toNat ≤
      stage.maySend.toNat + (stage.isEntry && !call.executed).toNat := by
  cases h with
  | admitted hunexecuted => simp [CallStage.maySend, CallStage.isSending, CallStage.isEntry, *]
  | panicked =>
    have hsending : stage.isSending.toNat ≤ stage.maySend.toNat := by
      cases stage <;> simp [CallStage.isSending, CallStage.maySend]
    have hover : CallStage.abandoned.maySend.toNat = 0 := rfl
    omega
  | _ => simp [CallStage.maySend, CallStage.isSending]

/-- **A step lets a call send only if it begins an execution, the first of its call.** -/
theorem Step.maySend_le (h : Step machine mover? machine' events) (hmarked : machine.Marked)
    (id : Nat) :
    machine'.tasks.countP (Task.maySend id) + (mover?.any (Task.isSending id)).toNat +
        (machine.tasks.any (Task.hasBegun id)).toNat ≤
      machine.tasks.countP (Task.maySend id) + (machine'.tasks.any (Task.hasBegun id)).toNat := by
  have hbegun : machine'.tasks.any (Task.hasBegun id) = _ := h.hasBegun_eq
  rw [hbegun]
  cases h with
  | newCall | newBatch | addItem => simp
  | spawn hfresh => cases hfresh <;> simp [Task.maySend, CallStage.maySend]
  | enqueue | poll => simp [Task.maySend]
  | @executing before after other stage stage' call call' pool' events htasks hfound hmove =>
    rw [htasks, countP_around, countP_around, ← htasks]
    by_cases hself : other = id
    · subst hself
      have hmay := hmove.maySend_le
      rw [hmarked.marked other call hfound] at hmay
      simp only [Task.maySend, Task.isSending, Task.executes, Option.any_some, beq_self_eq_true,
        Bool.true_and, Bool.or_true, Bool.toNat_true]
      cases hbefore : machine.tasks.any (Task.hasBegun other) with
      | true =>
        simp only [hbefore, Bool.not_true, Bool.and_false, Bool.toNat_false] at hmay
        simp only [Bool.toNat_true]
        omega
      | false =>
        have hentry : (stage.isEntry && !false).toNat ≤ 1 := Bool.toNat_le _
        rw [hbefore] at hmay
        simp only [Bool.toNat_false]
        omega
    · have hother : (other == id) = false := beq_false_of_ne hself
      simp [Task.maySend, Task.isSending, Task.executes, hother]
  | cancelling htasks | working htasks | stopping htasks =>
    rw [htasks, countP_around, countP_around]
    simp [Task.maySend, Task.isSending, Task.executes]
  | collecting htasks =>
    rw [htasks, List.countP_append, countP_around, countP_around]
    simp [Task.maySend, Task.isSending, Task.executes, List.countP_replicate]

/-- What the endpoint was asked to take for a call and what it may still be asked for is one request
at most, and none before an execution has begun. -/
theorem World.Reachable.requests_add_le {config : Config} {world : World}
    (h : Reachable config world) (id : Nat) :
    (world.log.requestsFor (.call id)).length + world.machine.tasks.countP (Task.maySend id) ≤
      (world.machine.tasks.any (Task.hasBegun id)).toNat := by
  induction h with
  | new => exact Nat.le_refl 0
  | @step world next label hbefore htaken ih =>
    obtain ⟨events, hstep, -⟩ := World.step_ok htaken
    have hmay := hstep.maySend_le hbefore.marked id
    rw [World.requests_step htaken, List.length_append]
    cases hrequest : (world.exchange? label).bind (Subject.call id).request? with
    | none =>
      rw [Option.toList_none, List.length_nil]
      omega
    | some frame =>
      rw [(World.sending_of_request hrequest).1, Bool.toNat_true] at hmay
      rw [Option.toList_some, List.length_singleton]
      omega

/-- The endpoint is asked to take nothing for a call but its request. -/
theorem World.Reachable.request_of_call {config : Config} {world : World}
    (h : Reachable config world) (id : Nat) : ∀ frame ∈ world.log.requestsFor (.call id),
      ∃ call, world.machine.calls[id]? = some call ∧ frame = call.request.frame := by
  induction h with
  | new => exact List.forall_mem_nil _
  | @step world next label hbefore htaken ih =>
    obtain ⟨events, hstep, -⟩ := World.step_ok htaken
    intro frame hmem
    rw [World.requests_step htaken] at hmem
    have hcall : ∃ call, world.machine.calls[id]? = some call ∧ frame = call.request.frame := by
      rcases List.mem_append.mp hmem with hmem | hmem
      · exact ih frame hmem
      · exact (World.sending_of_request (Option.mem_toList.mp hmem)).2
    obtain ⟨call, hfound, rfl⟩ := hcall
    obtain ⟨call', hfound', hkeeps⟩ := hstep.calls_kept hfound
    exact ⟨call', hfound', by rw [hkeeps.request_eq]⟩

/-- **The endpoint is asked at most once to take the request of a call**, and nothing else for
it. -/
theorem World.Reachable.requests_eq {config : Config} {world : World} {call : Call}
    (h : Reachable config world) {id : Nat} (hfound : world.machine.calls[id]? = some call) :
    world.log.requestsFor (.call id) = [] ∨
      world.log.requestsFor (.call id) = [call.request.frame] := by
  have hle := h.requests_add_le id
  have hone := Bool.toNat_le (world.machine.tasks.any (Task.hasBegun id))
  have hframes := h.request_of_call id
  generalize world.log.requestsFor (.call id) = requests at hle hframes
  match requests with
  | [] => exact .inl rfl
  | [frame] =>
    obtain ⟨other, hother, rfl⟩ := hframes frame (List.mem_singleton_self _)
    cases hfound.symm.trans hother
    exact .inr rfl
  | _ :: _ :: _ =>
    simp only [List.length_cons] at hle
    omega

/-! ## 3. No request -/

/-- An execution comes by a connection when it leases one. -/
theorem CallMove.leased_of_conn (h : CallMove id pool call stage pool' call' stage' events)
    (hnone : stage.conn? = none) : stage'.conn? = none ∨ ∃ conn, stage' = .leased conn := by
  cases h with
  | refused | admitted | forestalled | queued | gaveUp | timedOut | reserved | connectFailed
  | connectPanicked | panicked | released | discarded | decoded | reported => exact .inl rfl
  | reused | connected => exact .inr ⟨_, rfl⟩
  | _ => cases hnone

/-- An execution that is about to send had a connection and was not cancelled. -/
theorem CallMove.uncancelled_of_sending {conn : ConnId}
    (h : CallMove id pool call stage pool' call' (.sending conn) events) :
    stage.conn? = some conn ∧ call.isCancelled = false := by
  cases h with
  | dispatched huncancelled => exact ⟨rfl, huncancelled⟩

/-- No execution of call `id` has a connection, and nothing has been sent for it. -/
structure World.Unconnected (world : World) (id : Nat) : Prop where
  unheld : ∀ stage, .executing id stage ∈ world.machine.tasks → stage.conn? = none
  unsent : world.log.requestsFor (.call id) = []

/-- Call `id` is cancelled, no execution of it is about to send, and nothing has been sent. -/
structure World.Silenced (world : World) (id : Nat) : Prop where
  cancelled : ∃ call, world.machine.calls[id]? = some call ∧ call.isCancelled = true
  unwilling : ∀ conn, .executing id (.sending conn) ∉ world.machine.tasks
  unsent : world.log.requestsFor (.call id) = []

/-- What is not about to be sent is not sent in a step. -/
theorem World.unsent_step (htaken : world.step label = some next)
    (hunwilling : ∀ conn, .executing id (.sending conn) ∉ world.machine.tasks)
    (hunsent : world.log.requestsFor (.call id) = []) :
    next.log.requestsFor (.call id) = [] := by
  rw [World.requests_step htaken, hunsent, List.nil_append]
  cases hrequest : (world.exchange? label).bind (Subject.call id).request? with
  | none => rfl
  | some frame =>
    obtain ⟨hsending, -⟩ := World.sending_of_request hrequest
    obtain ⟨task, hmover, hsending⟩ := (Option.any_eq_true ..).mp hsending
    obtain ⟨i, -, htask⟩ := Option.bind_eq_some_iff.mp hmover
    cases task with
    | executing other stage =>
      cases stage with
      | sending conn =>
        obtain rfl : other = id := by simpa [Task.isSending, CallStage.isSending] using hsending
        exact absurd (List.mem_of_getElem? htask) (hunwilling conn)
      | _ => simp [Task.isSending, CallStage.isSending] at hsending
    | _ => cases hsending

theorem World.Unconnected.unwilling (h : world.Unconnected id) (conn : ConnId) :
    .executing id (.sending conn) ∉ world.machine.tasks :=
  fun hmem => absurd (h.unheld _ hmem) (by simp [CallStage.conn?])

theorem World.Unconnected.step (h : world.Unconnected id) (htaken : world.step label = some next)
    (hunleased : ∀ conn, .executing id (.leased conn) ∉ next.machine.tasks) :
    next.Unconnected id := by
  refine ⟨fun stage' hmem => ?_, World.unsent_step htaken h.unwilling h.unsent⟩
  rcases World.executions_step htaken hmem with hmem | rfl | ⟨stage, _, _, _, _, hbefore, -, hmove⟩
  · exact h.unheld stage' hmem
  · rfl
  · refine (hmove.leased_of_conn (h.unheld stage hbefore)).resolve_right ?_
    rintro ⟨conn, rfl⟩
    exact hunleased conn hmem

/-- A call that is cancelled before it has a connection is silenced. -/
theorem World.Unconnected.silenced (h : world.Unconnected id)
    (htaken : world.step label = some next)
    (hcancelled : ∃ call, next.machine.calls[id]? = some call ∧ call.isCancelled = true) :
    next.Silenced id := by
  refine ⟨hcancelled, fun conn hmem => ?_, World.unsent_step htaken h.unwilling h.unsent⟩
  rcases World.executions_step htaken hmem with hmem | hentry |
    ⟨stage, _, _, _, _, hbefore, -, hmove⟩
  · exact h.unwilling conn hmem
  · cases hentry
  · have hconn := hmove.uncancelled_of_sending.1
    rw [h.unheld stage hbefore] at hconn
    cases hconn

/-- **A call that is silenced stays so.** -/
theorem World.Silenced.step (h : world.Silenced id) (htaken : world.step label = some next) :
    next.Silenced id := by
  obtain ⟨call, hfound, hcancelled⟩ := h.cancelled
  obtain ⟨events, hstep, -⟩ := World.step_ok htaken
  obtain ⟨call', hfound', hkeeps⟩ := hstep.calls_kept hfound
  refine ⟨⟨call', hfound', hkeeps.cancelled hcancelled⟩, fun conn hmem => ?_,
    World.unsent_step htaken h.unwilling h.unsent⟩
  rcases World.executions_step htaken hmem with hmem | hentry | ⟨_, _, _, _, _, -, hself, hmove⟩
  · exact h.unwilling conn hmem
  · cases hentry
  · cases hself.symm.trans hfound
    exact absurd (hcancelled.symm.trans hmove.uncancelled_of_sending.2) (by simp)

end

namespace Run

variable {config : Config} {run : Run config} {id n m : Nat}

/-- No execution of call `id` has leased a connection up to moment `n`. -/
def Unleased (run : Run config) (id n : Nat) : Prop :=
  ∀ m ≤ n, ∀ conn, .executing id (.leased conn) ∉ (run.world m).machine.tasks

theorem Unleased.unconnected (h : run.Unleased id n) (hm : m ≤ n) :
    (run.world m).Unconnected id := by
  induction m with
  | zero =>
    rw [run.starts]
    exact ⟨fun _ hmem => absurd hmem List.not_mem_nil, rfl⟩
  | succ m ih =>
    have hbefore := ih (Nat.le_of_succ_le hm)
    rcases run.next m with ⟨-, hsame⟩ | ⟨label, -, htaken⟩
    · rw [hsame]
      exact hbefore
    · exact hbefore.step htaken (h (m + 1) hm)

/-- **If a call is cancelled before it has leased a connection, its request is never sent.** -/
theorem Unleased.unsent (h : run.Unleased id n)
    (hcancelled : ∃ call, (run.world (n + 1)).machine.calls[id]? = some call ∧
      call.isCancelled = true) : (run.world m).log.requestsFor (.call id) = [] := by
  rcases Nat.lt_or_ge n m with hm | hm
  · have hbefore := h.unconnected (Nat.le_refl n)
    have hsilenced : (run.world (n + 1)).Silenced id := by
      rcases run.next n with ⟨-, hsame⟩ | ⟨label, -, htaken⟩
      · rw [hsame] at hcancelled ⊢
        exact ⟨hcancelled, hbefore.unwilling, hbefore.unsent⟩
      · exact hbefore.silenced htaken hcancelled
    exact (run.later (motive := (World.Silenced · id)) hm hsilenced
      fun _ hsilenced htaken => hsilenced.step htaken).unsent
  · exact (h.unconnected hm).unsent

end Run

end RemoteCall.Client
