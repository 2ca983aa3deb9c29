/-
# Responses go to their requests

A response that is left on a connection would answer the next request that is sent there, and the
wrong call or item would get it.  `World.responses_attributed` says that this does not happen: a
connection that lies idle is level and unharmed (from `Traffic` and `Exposure`), so whoever takes it
reads the response of its own request, and every other connection that nobody holds has been closed
(from `Holdings`).  What users are told is read from these responses (from `Yields` and `Returns`).

A panic while a task sends or receives unwinds past the code that closes its connection, and the
pool gets the connection back as it is.  Of such a connection nothing is said, and a slot that was
lost when connecting panicked stays lost.
-/
import RemoteCall.Proofs.Client.Exposure
import RemoteCall.Proofs.Client.Results
import RemoteCall.Proofs.Client.Settling

namespace RemoteCall.Client

/-! ## 1. Answers -/

/-- The endpoint answers the requests on each connection in their order: the response to a request
depends on that request, on those that were sent on the connection before it and on nothing else. -/
def Log.AnsweredBy (log : Log) (endpoint : ConnId → List Bytes → Bytes → Bytes) : Prop :=
  ∀ conn, ¬ log.Struck conn → ∀ (k : Nat) (request response : Subject × Bytes),
    (log.sentOn conn)[k]? = some request → (log.receivedOn conn)[k]? = some response →
      response.2 = endpoint conn (((log.sentOn conn).take k).map Prod.snd) request.2

/-- A call or an item asks for one thing only. -/
theorem World.Reachable.asks_unique {config : Config} {world : World} (h : Reachable config world)
    {subject : Subject} {request request' : Bytes} (hasks : world.machine.Asks subject request)
    (hasks' : world.machine.Asks subject request') : request' = request := by
  cases hasks with
  | call hfound =>
    cases hasks' with
    | call hfound' =>
      cases hfound.symm.trans hfound'
      rfl
  | @item id batch item hfound hmem =>
    generalize hsubject : Subject.item id item.key = subject at hasks'
    cases hasks' with
    | call => cases hsubject
    | @item _ _ item' hfound' hmem' =>
      obtain ⟨rfl, hkey⟩ := Subject.item.inj hsubject
      cases hfound.symm.trans hfound'
      have hbalanced := (h.holds Team.Balanced.lasting).teams id _ (Machine.team?_eq hfound)
      rw [List.inj_on_of_nodup_map hbalanced.keys_nodup hmem hmem' hkey]

/-! ## 2. Who holds connections -/

/-- Who uses the pool. -/
inductive User where
  | call (id : Nat)
  | batch (id : Nat)
  deriving DecidableEq, Repr

/-- For whom a task works. -/
def Task.user : Task → User
  | executing id _ | cancelling id _ => .call id
  | collecting id _ | working id _ | stopping id _ => .batch id

/-- The call or batch has ended: no execution of the call is under way, or the user of the batch has
been told the end, or a worker has panicked and the leader with it. -/
inductive World.Ended (world : World) : User → Prop
  | call {id : Nat}
    (finished : ∀ stage, .executing id stage ∈ world.machine.tasks → stage.isOver = true) :
    Ended world (.call id)
  | batch {id : Nat} {result : BatchEnd} (told : .terminal result ∈ world.log.callbacks id) :
    Ended world (.batch id)
  | panicked {id : Nat} {collector : Collector}
    (led : .collecting id collector ∈ world.machine.tasks)
    (stricken : collector.stage = .abandoned) :
    Ended world (.batch id)

/-- How many tasks of other users hold a connection or a slot for one. -/
def Machine.heldByOthers (machine : Machine) (user : User) : Nat :=
  machine.tasks.countP fun task => task.user ≠ user ∧ task.grip ≠ .free

theorem CallStage.grip_of_isOver {id : Nat} {stage : CallStage} (h : stage.isOver = true) :
    stage.grip id = .free := by
  cases stage with
  | finished | abandoned => rfl
  | _ => cases h

theorem WorkerStage.grip_of_isOver {id : Nat} {stage : WorkerStage} (h : stage.isOver = true) :
    stage.grip id = .free := by
  cases stage with
  | finished | abandoned => rfl
  | _ => cases h

/-- When the end of a batch has been told its leader has closed it. -/
theorem Team.Balanced.closing_of_told {team : Team} {callbacks : List Callback} {result : BatchEnd}
    (h : team.Balanced callbacks) (htold : .terminal result ∈ callbacks) :
    ∃ collector ∈ team.leads, collector.stage.isClosing = true := by
  cases h with
  | waiting => exact absurd htold List.not_mem_nil
  | @running _ _ collector deliveries =>
    refine ⟨collector, List.mem_singleton_self collector, ?_⟩
    have hresult : collector.result? = some result := by
      simpa [callbacksOf] using htold
    obtain ⟨stage, completed, errors⟩ := collector
    cases stage with
    | finished => rfl
    | _ => cases hresult

/-- When a batch has ended its workers are over. -/
theorem World.Reachable.workers_over {config : Config} {world : World} (h : Reachable config world)
    {id : Nat} (hended : world.Ended (.batch id)) :
    ∀ worker ∈ world.machine.workers id, worker.isOver = true := by
  have hholds := h.holds Team.InOrder.lasting
  have hid : id < world.machine.batches.length := by
    cases hended with
    | batch htold =>
      refine Nat.lt_of_not_le fun hid => ?_
      rw [hholds.unknown id hid] at htold
      exact List.not_mem_nil htold
    | panicked hled => exact (hholds.tidy _ hled).1
  obtain ⟨hbalanced, horderly⟩ :=
    hholds.teams id _ (Machine.team?_eq (List.getElem?_eq_getElem hid))
  have hclosing : ∃ collector ∈ world.machine.tasks.filterMap (Task.lead? id),
      collector.stage.isClosing = true := by
    cases hended with
    | batch htold => exact hbalanced.closing_of_told htold
    | @panicked _ collector hled hstricken =>
      have hleads : collector.leads = true := by
        unfold Collector.leads
        rw [hstricken]
      refine ⟨collector, List.mem_filterMap.mpr ⟨_, hled, Task.lead?_of_leads hleads⟩, ?_⟩
      rw [hstricken]
      rfl
  obtain ⟨collector, hlead, hclosing⟩ := hclosing
  rw [Machine.workers_eq]
  exact (horderly collector hlead).workers_over hclosing

/-- A call or a batch that has ended holds nothing. -/
theorem World.Reachable.free_of_ended {config : Config} {world : World} (h : Reachable config world)
    {task : Task} (htask : task ∈ world.machine.tasks) (hended : world.Ended task.user) :
    task.grip = .free := by
  cases task with
  | executing id stage =>
    cases hended with
    | call hover => exact CallStage.grip_of_isOver (hover stage htask)
  | working id stage =>
    have hworker : stage ∈ world.machine.workers id := by
      rw [Machine.workers_eq]
      exact List.mem_filterMap.mpr ⟨_, htask, Task.worker?_self⟩
    exact WorkerStage.grip_of_isOver (h.workers_over hended stage hworker)
  | cancelling | collecting | stopping => rfl

/-- **The pool counts what the others hold** when a call or a batch has ended. -/
theorem World.Reachable.leased_eq {config : Config} {world : World} (h : Reachable config world)
    {user : User} (hended : world.Ended user) :
    world.machine.pool.leased = world.machine.heldByOthers user + world.log.lostSlots := by
  rw [h.holdings.leased_eq, holdersOf, Machine.grips, List.countP_map, Machine.heldByOthers]
  congr 1
  refine List.countP_congr fun task htask => ?_
  simp only [Function.comp_apply, decide_eq_true_eq]
  refine ⟨fun hholding => ⟨?_, hholding⟩, And.right⟩
  rintro rfl
  exact hholding (h.free_of_ended htask hended)

/-! ## 3. Attribution -/

/-- The frame was received for a call or an item, and it is the endpoint's answer to the one thing
that the call or item asks for, unless a panic has struck the connection. -/
def World.Answers (world : World) (endpoint : ConnId → List Bytes → Bytes → Bytes)
    (subject : Subject) (frame : Bytes) : Prop :=
  ∃ (conn : ConnId) (k : Nat), (world.log.receivedOn conn)[k]? = some (subject, frame) ∧
    (¬ world.log.Struck conn → ∃ request, world.machine.Asks subject request ∧
      (∀ other, world.machine.Asks subject other → other = request) ∧
      (world.log.sentOn conn)[k]? = some (subject, request) ∧
      frame = endpoint conn (((world.log.sentOn conn).take k).map Prod.snd) request)

/-- Responses go to their requests. -/
structure World.Attributed (world : World) : Prop where
  /-- On an idle connection every request has been answered, and it is unharmed. -/
  idle : ∀ conn ∈ world.machine.pool.idle, ¬ world.log.Struck conn →
    world.log.receivedFor conn = world.log.sentFor conn ∧
      ¬ world.log.Failed conn ∧ ¬ world.log.Aborted conn
  /-- What is decoded for a call or an item is the answer to its request. -/
  decoded : ∀ endpoint, world.log.AnsweredBy endpoint →
    ∀ subject frame, .decoded subject frame ∈ world.log → world.Answers endpoint subject frame
  /-- What an execution returns was decoded for its call. -/
  returned : ∀ id datum, .executing id (.finished (.ok datum)) ∈ world.machine.tasks →
    world.machine.Returns world.log id datum
  /-- What the user of a batch is told of an item was decoded for the item. -/
  told : ∀ id delivery, .delivery delivery ∈ world.log.callbacks id →
    world.machine.Yields world.log id delivery
  /-- A connection that nobody holds, with a request unanswered, an error or an abort behind it, has
  been closed. -/
  discarded : ∀ conn, 1 ≤ conn → conn ≤ world.machine.pool.opened → ¬ world.log.Struck conn →
    (∀ task ∈ world.machine.tasks, task.grip.conn? ≠ some conn) →
    (world.log.receivedFor conn ≠ world.log.sentFor conn ∨
      world.log.Failed conn ∨ world.log.Aborted conn) →
    conn ∈ world.log.closed
  /-- When a call or a batch has ended the pool counts what the others hold. -/
  leased : ∀ user, world.Ended user →
    world.machine.pool.leased = world.machine.heldByOthers user + world.log.lostSlots

section

variable {config : Config} {world : World} {conn : ConnId}

/-- An idle connection is level and unharmed. -/
theorem World.Reachable.idle_level (h : Reachable config world)
    (hidle : conn ∈ world.machine.pool.idle) (hunstruck : ¬ world.log.Struck conn) :
    world.log.receivedFor conn = world.log.sentFor conn ∧
      ¬ world.log.Failed conn ∧ ¬ world.log.Aborted conn := by
  have hlevel : world.log.sentFor conn = world.log.receivedFor conn ++ [] :=
    h.traffic.spare conn (.inl hidle) hunstruck
  have hclaim := h.exposure.spare conn (.inl hidle) hunstruck
  rw [List.append_nil] at hlevel
  refine ⟨hlevel.symm, hclaim.unfailed, fun haborted => ?_⟩
  obtain ⟨place, hplace, -⟩ := hclaim.shown (.inl haborted)
  cases hplace

/-- A connection that was opened and is neither held nor idle has been closed. -/
theorem World.Reachable.closed_of_unheld (h : Reachable config world) (hpos : 1 ≤ conn)
    (hopened : conn ≤ world.machine.pool.opened)
    (hunheld : ∀ task ∈ world.machine.tasks, task.grip.conn? ≠ some conn)
    (hbusy : conn ∉ world.machine.pool.idle) : conn ∈ world.log.closed := by
  have honce := h.holdings.once conn
  have hheld : heldCount world.machine.grips conn = 0 := by
    refine List.count_eq_zero.mpr fun hmem => ?_
    obtain ⟨grip, hgrip, hconn⟩ := List.mem_filterMap.mp hmem
    obtain ⟨task, htask, rfl⟩ := List.mem_map.mp hgrip
    exact hunheld task htask hconn
  rw [hheld, List.count_eq_zero.mpr hbusy, Pool.openedCount, if_pos ⟨hpos, hopened⟩] at honce
  exact List.count_pos_iff.mp (by omega)

/-- The response to a request is received at its place in the order. -/
theorem World.Reachable.sent_of_received (h : Reachable config world) {k : Nat} {subject : Subject}
    {frame : Bytes} (hreceived : (world.log.receivedOn conn)[k]? = some (subject, frame))
    (hunstruck : ¬ world.log.Struck conn) :
    ∃ request, (world.log.sentOn conn)[k]? = some (subject, request) := by
  have hfor : (world.log.receivedFor conn)[k]? = some subject := by
    rw [Log.receivedFor, List.getElem?_map, hreceived, Option.map_some]
  obtain ⟨rest, hrest⟩ := h.traffic.ordered conn hunstruck
  have hsent : (world.log.sentFor conn)[k]? = some subject := by
    rw [← hrest, List.getElem?_append_left (List.getElem?_eq_some_iff.mp hfor).1, hfor]
  rw [Log.sentFor, List.getElem?_map] at hsent
  obtain ⟨⟨_, request⟩, hrequest, rfl⟩ := Option.map_eq_some_iff.mp hsent
  exact ⟨request, hrequest⟩

/-- A response is the answer to the request that it was received for. -/
theorem World.Reachable.answers (h : Reachable config world)
    {endpoint : ConnId → List Bytes → Bytes → Bytes} (hanswered : world.log.AnsweredBy endpoint)
    {subject : Subject} {frame : Bytes} (hmem : (subject, frame) ∈ world.log.receivedOn conn) :
    world.Answers endpoint subject frame := by
  obtain ⟨k, hk⟩ := List.mem_iff_getElem?.mp hmem
  refine ⟨conn, k, hk, fun hunstruck => ?_⟩
  obtain ⟨request, hsent⟩ := h.sent_of_received hk hunstruck
  have hasks := h.sent_asks conn _ (List.mem_of_getElem? hsent)
  exact ⟨request, hasks, fun other hother => h.asks_unique hasks hother, hsent,
    hanswered conn hunstruck k _ _ hsent hk⟩

end

/-- **No response is attributed to another request**, whatever the users of a client do and whatever
fails. -/
theorem World.responses_attributed {config : Config} {world : World} (h : Reachable config world) :
    world.Attributed where
  idle conn hidle hunstruck := h.idle_level hidle hunstruck
  decoded endpoint hanswered subject frame hdecoded := by
    obtain ⟨conn, hmem⟩ := h.received.decoded subject frame hdecoded
    exact h.answers hanswered hmem
  returned id datum hfinished := h.returns hfinished
  told id delivery htold := h.tells htold
  discarded conn hpos hopened hunstruck hunheld htrouble := by
    refine h.closed_of_unheld hpos hopened hunheld fun hidle => ?_
    obtain ⟨hlevel, hunfailed, hunaborted⟩ := h.idle_level hidle hunstruck
    rcases htrouble with hunlevel | hfailed | haborted
    · exact hunlevel hlevel
    · exact hunfailed hfailed
    · exact hunaborted haborted
  leased user hended := h.leased_eq hended

/-! ## 4. Two calls on one connection -/

/-- An endpoint that answers with the request and its number on the connection. -/
def numbering (_ : ConnId) (earlier : List Bytes) (request : Bytes) : Bytes :=
  UInt8.ofNat earlier.length :: request

/-- What happens to two calls if the second uses the connection of the first. -/
def twoCalls : List Label :=
  [.order (.newCall ⟨"Ping", [7], none⟩ ⟨[], .string⟩),
    .order (.newCall ⟨"Pong", [8], none⟩ ⟨[], .string⟩), .order (.execute 0), .order (.execute 1),
    .advance 0, .advance 0, .advance 0, .answer 0 .connected, .advance 0, .advance 0,
    .answer 0 .sent, .answer 0 (.received [0, 7]), .advance 0, .advance 0, .advance 0, .advance 0,
    .advance 1, .advance 1, .advance 1, .advance 1, .advance 1, .answer 1 .sent,
    .answer 1 (.received [1, 8]), .advance 1, .advance 1, .advance 1, .advance 1]

theorem twoCalls_possible : ((World.new {}).after twoCalls).isSome = true := by decide

/-- Each of the two calls gets the answer to its own request, and in the end the connection lies
idle. -/
theorem World.responses_attributed_twoCalls : ∃ world : World, Reachable {} world ∧
    world.machine.pool.idle = [1] ∧ world.log.AnsweredBy numbering ∧
      .decoded (.call 1) [1, 8] ∈ world.log ∧ world.Attributed := by
  have hreachable : Reachable {} _ :=
    (Run.ofLabels {} twoCalls twoCalls_possible).reachable twoCalls.length
  refine ⟨_, hreachable, by rfl, fun conn _ k request response hsent hreceived => ?_,
    List.mem_of_getElem? (i := 9) rfl, World.responses_attributed hreachable⟩
  match conn, k with
  | 1, 0 | 1, 1 =>
    cases hsent
    cases hreceived
    rfl
  | 1, k + 2 | 0, k | conn + 2, k => cases hsent

end RemoteCall.Client
