/-
# What a script makes of the items of a batch

A `Script` says of a connection that answers in order how the sends of a batch and its receives are
answered, each counted from zero.  Exchanged one after the other, the items of a batch give the
reports `Script.reports`: a delivery for each item, and at the first exchange that fails the failure,
with which it ends.

A worker sends a whole chunk ahead.  What it is still going to report (`Script.remaining`) does not
show that: the requests that are sent already are answered first, and then all goes on as if none had
been sent ahead (`Script.answers_reports`).  So every step of a worker either makes the next report
or leaves what remains as it is (`WorkerMove.follows`), wherever in a chunk an exchange fails.
-/
import RemoteCall.Proofs.Client.Batch.Course

namespace RemoteCall.Client

/-! ## 1. Scripts -/

/-- How the exchanges of a batch on a connection are answered, in their order. -/
structure Script where
  /-- The error with which a send fails, if it does. -/
  send : Nat → Option Error
  receive : Nat → Except Error Bytes

/-- The answers to sends. -/
def sends (answered : List (Operation × Answer)) : List Answer :=
  answered.filterMap fun
    | (.send _ _, answer) => some answer
    | _ => none

/-- The answers to receives. -/
def receives (answered : List (Operation × Answer)) : List Answer :=
  answered.filterMap fun
    | (.receive _, answer) => some answer
    | _ => none

theorem sends_append (answered more : List (Operation × Answer)) :
    sends (answered ++ more) = sends answered ++ sends more := List.filterMap_append

theorem receives_append (answered more : List (Operation × Answer)) :
    receives (answered ++ more) = receives answered ++ receives more := List.filterMap_append

section

variable {answered : List (Operation × Answer)} {conn : ConnId} {frame : Bytes} {answer : Answer}

/-- A send is no receive. -/
theorem receives_send : receives (answered ++ [(.send conn frame, answer)]) = receives answered := by
  rw [receives_append]
  exact List.append_nil _

theorem sends_receive : sends (answered ++ [(.receive conn, answer)]) = sends answered := by
  rw [sends_append]
  exact List.append_nil _

theorem length_sends_send :
    (sends (answered ++ [(.send conn frame, answer)])).length = (sends answered).length + 1 := by
  rw [sends_append]
  exact List.length_append

theorem length_receives_receive :
    (receives (answered ++ [(.receive conn, answer)])).length =
      (receives answered).length + 1 := by
  rw [receives_append]
  exact List.length_append

end

namespace Script

variable (script : Script)

/-- The answer to a send. -/
def sent (i : Nat) : Answer :=
  match script.send i with
  | none => .sent
  | some error => .failed error

/-- The answer to a receive. -/
def received (i : Nat) : Answer :=
  match script.receive i with
  | .ok frame => .received frame
  | .error error => .failed error

/-- Everything was answered as the script says. -/
structure Rules (answered : List (Operation × Answer)) : Prop where
  sent : ∀ i answer, (sends answered)[i]? = some answer → answer = script.sent i
  received : ∀ i answer, (receives answered)[i]? = some answer → answer = script.received i

variable {script} in
/-- What is answered up to a moment was answered by the script if all is. -/
theorem Rules.of_append {answered more : List (Operation × Answer)}
    (h : script.Rules (answered ++ more)) : script.Rules answered := by
  have hkept : ∀ {answers rest : List Answer} {i : Nat} {answer : Answer},
      answers[i]? = some answer → (answers ++ rest)[i]? = some answer := by
    intro answers rest i answer hanswer
    rw [List.getElem?_append_left (List.getElem?_eq_some_iff.mp hanswer).1, hanswer]
  refine ⟨fun i answer hanswer => h.sent i answer ?_, fun i answer hanswer =>
    h.received i answer ?_⟩
  · rw [sends_append]
    exact hkept hanswer
  · rw [receives_append]
    exact hkept hanswer

/-- Answers that are those of the script, from the first on. -/
theorem rules_of_eq {answered : List (Operation × Answer)} (count count' : Nat)
    (hsends : sends answered = (List.range count).map script.sent)
    (hreceives : receives answered = (List.range count').map script.received) :
    script.Rules answered := by
  have hself : ∀ {answers : List Answer} {f : Nat → Answer} {count i : Nat} {answer : Answer},
      answers = (List.range count).map f → answers[i]? = some answer → answer = f i := by
    rintro _ f count i answer rfl hanswer
    obtain ⟨_, rfl⟩ := List.getElem?_eq_some_iff.mp hanswer
    rw [List.getElem_map, List.getElem_range]
  exact ⟨fun i answer => hself hsends, fun i answer => hself hreceives⟩

/-! ## 2. Reports -/

/-- The reports on items that are exchanged one after the other, from the exchange `i` on. -/
def reports : (i : Nat) → List BatchItem → List Report
  | _, [] => []
  | i, item :: items =>
    match script.send i, script.receive i with
    | some error, _ => [.failed error]
    | none, .error error => [.failed error]
    | none, .ok frame => .delivery (WorkerStage.delivery item frame) :: reports (i + 1) items

/-- The reports on items that have been sent, the first of them in exchange `i`, and then `more`,
unless a receive fails. -/
def answers : (i : Nat) → List BatchItem → (more : List Report) → List Report
  | _, [], more => more
  | i, item :: waiting, more =>
    match script.receive i with
    | .error error => [.failed error]
    | .ok frame => .delivery (WorkerStage.delivery item frame) :: answers (i + 1) waiting more

/-- What follows the responses to requests that are sent: the failure of a send, or the reports on
the items of the queue. -/
def following (i : Nat) (queue : List BatchItem) : (sendError : Option Error) → List Report
  | none => script.reports i queue
  | some error => [.failed error]

/-- The reports that a worker is still going to make, after this many responses. -/
def remaining (responses : Nat) (queue : List BatchItem) : WorkerStage → List Report
  | .acquiring | .connecting | .leased _ | .ready _ _ | .fetching _ _ =>
    script.reports responses queue
  | .sending _ _ sent todo =>
    script.answers responses sent (script.reports (responses + sent.length) (todo ++ queue))
  | .receiving _ _ waiting sendError =>
    script.answers responses waiting (script.following (responses + waiting.length) queue sendError)
  | .received _ _ item frame waiting sendError =>
    .delivery (WorkerStage.delivery item frame) :: script.answers responses waiting
      (script.following (responses + waiting.length) queue sendError)
  | .failing _ error => [.failed error]
  | .releasing _ _ | .finished | .abandoned => []

variable {script} {i responses : Nat} {item : BatchItem} {items sent queue : List BatchItem}

/-- **Sending ahead makes no difference**: an item that is sent next counts as sent. -/
theorem answers_reports (hsend : script.send (i + sent.length) = none) :
    script.answers i sent (script.reports (i + sent.length) (item :: items)) =
      script.answers i (sent ++ [item]) (script.reports (i + (sent ++ [item]).length) items) := by
  induction sent generalizing i with
  | nil =>
    have hsend : script.send i = none := hsend
    simp only [answers, reports, List.nil_append, List.length_nil, Nat.add_zero,
      List.length_singleton, hsend]
    cases script.receive i <;> rfl
  | cons first sent ih =>
    have hlength : ∀ items : List BatchItem,
        i + (first :: items).length = i + 1 + items.length := by
      intro items
      rw [List.length_cons, Nat.add_right_comm, Nat.add_assoc]
    rw [hlength] at hsend
    rw [List.cons_append, hlength, hlength]
    simp only [answers, ih hsend]

/-- The item whose request cannot be sent is reported after those that were sent. -/
theorem answers_failed {error : Error} (hsend : script.send (i + sent.length) = some error) :
    script.answers i sent (script.reports (i + sent.length) (item :: items)) =
      script.answers i sent [.failed error] := by
  rw [reports, hsend]

theorem remaining_await {conn : ConnId} {slot : Nat} {waiting : List BatchItem}
    {sendError : Option Error} :
    script.remaining responses queue (WorkerStage.await conn slot waiting sendError) =
      script.answers responses waiting
        (script.following (responses + waiting.length) queue sendError) := by
  unfold WorkerStage.await
  split <;> rfl

theorem remaining_dispatch {conn : ConnId} {slot : Nat} {sent todo : List BatchItem} :
    script.remaining responses queue (WorkerStage.dispatch conn slot sent todo) =
      script.answers responses sent
        (script.reports (responses + sent.length) (todo ++ queue)) := by
  unfold WorkerStage.dispatch
  split
  · exact remaining_await
  · rfl

/-- **Reports have one of two forms**: a delivery for every item, or deliveries and a failure. -/
theorem reports_cases (script : Script) (i : Nat) (items : List BatchItem) :
    ∃ deliveries : List Delivery,
      (script.reports i items = deliveries.map .delivery ∧ deliveries.length = items.length) ∨
      ∃ error, script.reports i items = deliveries.map .delivery ++ [.failed error] := by
  induction items generalizing i with
  | nil => exact ⟨[], .inl ⟨rfl, rfl⟩⟩
  | cons item items ih =>
    unfold reports
    cases script.send i with
    | some error => exact ⟨[], .inr ⟨error, rfl⟩⟩
    | none =>
      cases script.receive i with
      | error error => exact ⟨[], .inr ⟨error, rfl⟩⟩
      | ok frame =>
        obtain ⟨deliveries, ⟨hreports, hlength⟩ | ⟨error, hreports⟩⟩ := ih (i + 1)
        · refine ⟨WorkerStage.delivery item frame :: deliveries, .inl ⟨?_, ?_⟩⟩
          · rw [hreports, List.map_cons]
          · rw [List.length_cons, hlength, List.length_cons]
        · refine ⟨WorkerStage.delivery item frame :: deliveries, .inr ⟨error, ?_⟩⟩
          rw [hreports, List.map_cons, List.cons_append]

end Script

/-! ## 3. A worker and the script -/

namespace WorkerStage

/-- As many requests are sent as are answered and, with a chunk at hand, waiting.  After a failure it
does not matter. -/
def InStep (sends receives : Nat) : WorkerStage → Prop
  | acquiring | connecting | leased _ | ready _ _ | fetching _ _ => sends = receives
  | sending _ _ sent _ => sends = receives + sent.length
  | receiving _ _ waiting none | received _ _ _ _ waiting none => sends = receives + waiting.length
  | _ => True

theorem inStep_await {conn : ConnId} {slot : Nat} {waiting : List BatchItem}
    {sendError : Option Error} {sends receives : Nat}
    (h : sendError = none → sends = receives + waiting.length) :
    (await conn slot waiting sendError).InStep sends receives := by
  unfold await
  split
  · exact h rfl
  · trivial
  · cases sendError with
    | none => exact h rfl
    | some error => trivial

theorem inStep_dispatch {conn : ConnId} {slot : Nat} {sent todo : List BatchItem}
    {sends receives : Nat} (h : sends = receives + sent.length) :
    (dispatch conn slot sent todo).InStep sends receives := by
  unfold dispatch
  split
  · exact inStep_await fun _ => h
  · exact h

end WorkerStage

section

variable {script : Script} {answered : List (Operation × Answer)} {conn : ConnId} {frame : Bytes}
  {answer : Answer} {error : Error}

/-- The next send is answered as the script says. -/
theorem Script.Rules.next_send (h : script.Rules (answered ++ [(.send conn frame, answer)])) :
    answer = script.sent (sends answered).length := by
  refine h.sent _ _ ?_
  rw [sends_append]
  exact List.getElem?_concat_length

theorem Script.Rules.next_receive (h : script.Rules (answered ++ [(.receive conn, answer)])) :
    answer = script.received (receives answered).length := by
  refine h.received _ _ ?_
  rw [receives_append]
  exact List.getElem?_concat_length

theorem Script.send_of_sent {i : Nat} (h : .sent = script.sent i) : script.send i = none := by
  unfold sent at h
  split at h
  · assumption
  · cases h

theorem Script.send_of_failed {i : Nat} (h : .failed error = script.sent i) :
    script.send i = some error := by
  unfold sent at h
  split at h
  · cases h
  · cases h
    assumption

theorem Script.receive_of_received {i : Nat} (h : .received frame = script.received i) :
    script.receive i = .ok frame := by
  unfold received at h
  split at h
  · cases h
    assumption
  · cases h

theorem Script.receive_of_failed {i : Nat} (h : .failed error = script.received i) :
    script.receive i = .error error := by
  unfold received at h
  split at h
  · cases h
  · cases h
    assumption

/-- A worker that has exchanged so much is going to make these reports. -/
structure Script.Follows (script : Script) (answered : List (Operation × Answer))
    (queue : List BatchItem) (stage : WorkerStage) (todo : List Report) : Prop where
  remaining_eq : script.remaining (receives answered).length queue stage = todo
  inStep : stage.InStep (sends answered).length (receives answered).length

/-- **A step of a worker makes the next report or none**, and leaves the rest to be made; but a
worker may end without a connection. -/
theorem WorkerMove.follows {id depth timeoutMs : Nat} {pool pool' : Pool} {batch batch' : Batch}
    {stage stage' : WorkerStage} {events : List Event} {answered' : List (Operation × Answer)}
    {todo : List Report}
    (h : WorkerMove id depth timeoutMs pool batch stage pool' batch' stage' events)
    (hdepth : 0 < depth) (hgoing : stage.isDone = false → batch.isStopping = false)
    (hunharmed : stage' ≠ .abandoned)
    (hanswered : answered' = answered ++ Log.answered events id) (hrules : script.Rules answered')
    (hfollows : script.Follows answered batch.queue stage todo) :
    (stage.isEarly = true ∧ stage' = .finished) ∨
      ∃ made todo', todo = made ++ todo' ∧ batch'.channel = batch.channel ++ made ∧
        script.Follows answered' batch'.queue stage' todo' := by
  have hcontra : batch.isStopping = true → stage.isDone = false → False :=
    fun hstopping hdone => absurd (hstopping.symm.trans (hgoing hdone)) (by simp)
  obtain ⟨rfl, hinStep⟩ := hfollows
  have hnone : batch.channel = batch.channel ++ [] := (List.append_nil _).symm
  cases h with
  | gaveUp hstopping => exact (hcontra hstopping rfl).elim
  | turnedAway hstopping => exact (hcontra hstopping rfl).elim
  | stopped hstopping => exact (hcontra hstopping rfl).elim
  | timedOut => exact .inl ⟨rfl, rfl⟩
  | connectFailed => exact .inl ⟨rfl, rfl⟩
  | connectPanicked => exact absurd rfl hunharmed
  | panicked => exact absurd rfl hunharmed
  | reused | reserved | connected | registered | wentOn =>
    obtain rfl : answered' = answered := hanswered.trans (List.append_nil _)
    exact .inr ⟨[], _, rfl, hnone, rfl, hinStep⟩
  | drained hempty =>
    obtain rfl : answered' = answered := hanswered.trans (List.append_nil _)
    have hqueue : batch.queue = [] :=
      (List.take_eq_nil_iff.mp hempty).resolve_left (Nat.ne_of_gt hdepth)
    refine .inr ⟨[], _, rfl, hnone, ?_, trivial⟩
    show [] = script.reports _ batch.queue
    rw [hqueue]
    rfl
  | @fetched conn slot item items hfound =>
    obtain rfl : answered' = answered := hanswered.trans (List.append_nil _)
    refine .inr ⟨[], _, rfl, hnone, ?_, hinStep⟩
    rw [Script.remaining, Script.answers, ← hfound, List.take_append_drop]
    rfl
  | @sent conn slot item sent todo =>
    obtain rfl : answered' = answered ++ [(.send conn item.request.frame, .sent)] := by
      simpa [Log.answered] using hanswered
    have hsend := Script.send_of_sent hrules.next_send
    rw [show (sends answered).length = (receives answered).length + sent.length from hinStep]
      at hsend
    refine .inr ⟨[], _, rfl, hnone, ?_, WorkerStage.inStep_dispatch ?_⟩
    · rw [receives_send, Script.remaining_dispatch]
      exact (Script.answers_reports hsend).symm
    · rw [receives_send, length_sends_send, List.length_append, ← Nat.add_assoc]
      exact congrArg (· + 1) hinStep
  | @sendFailed conn slot item sent todo error =>
    obtain rfl : answered' = answered ++ [(.send conn item.request.frame, .failed error)] := by
      simpa [Log.answered] using hanswered
    have hsend := Script.send_of_failed hrules.next_send
    rw [show (sends answered).length = (receives answered).length + sent.length from hinStep]
      at hsend
    refine .inr ⟨[], _, rfl, hnone, ?_,
      WorkerStage.inStep_await (absurd · (Option.some_ne_none _))⟩
    rw [receives_send, Script.remaining_await]
    exact (Script.answers_failed hsend).symm
  | @received conn slot item waiting sendError frame =>
    obtain rfl : answered' = answered ++ [(.receive conn, .received frame)] := by
      simpa [Log.answered] using hanswered
    have hreceive := Script.receive_of_received hrules.next_receive
    refine .inr ⟨[], _, rfl, hnone, ?_, ?_⟩
    · show _ :: _ = script.answers (receives answered).length (item :: waiting) _
      rw [length_receives_receive, Script.answers, hreceive, List.length_cons, Nat.add_right_comm,
        Nat.add_assoc]
    · cases sendError with
      | none =>
        show (sends _).length = (receives _).length + waiting.length
        rw [length_receives_receive, sends_receive, Nat.add_right_comm, Nat.add_assoc]
        exact hinStep
      | some error => trivial
  | @receiveFailed conn slot item waiting sendError error =>
    obtain rfl : answered' = answered ++ [(.receive conn, .failed error)] := by
      simpa [Log.answered] using hanswered
    have hreceive := Script.receive_of_failed hrules.next_receive
    refine .inr ⟨[], _, rfl, hnone, ?_, trivial⟩
    show _ = script.answers (receives answered).length (item :: waiting) _
    rw [Script.answers, hreceive]
    rfl
  | @reported conn slot item frame waiting sendError =>
    obtain rfl : answered' = answered := hanswered.trans (List.append_nil _)
    refine .inr ⟨[.delivery (WorkerStage.delivery item frame)], _, rfl, rfl, ?_,
      WorkerStage.inStep_await fun hnone => ?_⟩
    · exact Script.remaining_await
    · rw [hnone] at hinStep
      exact hinStep
  | failed =>
    obtain rfl : answered' = answered := hanswered.trans (List.append_nil _)
    exact .inr ⟨_, [], (List.append_nil _).symm, rfl, rfl, trivial⟩
  | @released conn broken =>
    obtain rfl : answered' = answered := by
      rw [hanswered, answered_giveBackEvents, List.append_nil]
    exact .inr ⟨[], [], rfl, hnone, rfl, trivial⟩

/-- A worker that has more reports to make had so before, and has reported no failure. -/
theorem WorkerMove.undone {id depth timeoutMs : Nat} {pool pool' : Pool} {batch batch' : Batch}
    {stage stage' : WorkerStage} {events : List Event}
    (h : WorkerMove id depth timeoutMs pool batch stage pool' batch' stage' events)
    (hundone : stage'.isDone = false) :
    stage.isDone = false ∧ batch'.halted = batch.halted ∧
      ∀ error, .failed error ∈ batch'.channel → .failed error ∈ batch.channel := by
  cases h with
  | gaveUp | timedOut | connectFailed | connectPanicked | panicked | drained | failed
  | released => cases hundone
  | reported =>
    refine ⟨rfl, rfl, fun error hmem => ?_⟩
    exact (List.mem_append.mp hmem).resolve_right (by simp)
  | _ => exact ⟨rfl, rfl, fun _ hmem => hmem⟩

end

end RemoteCall.Client
