/-
# Who can abort a connection

The users of connections take precautions against late aborts: an execution gives its connection
back only if its call was not cancelled, a worker only if its registration was still there.

`Exposure` says that this is enough.  A connection that nobody holds is registered nowhere, has not
been aborted and will not be; and what was done to one that is held shows at the place of its
holder: the call is cancelled, or the slot is empty.
-/
import RemoteCall.Proofs.Client.Registration

namespace RemoteCall.Client

/-! ## 1. Claims -/

/-- What a task relies on that may give its connection back. -/
inductive Claim where
  /-- Nobody else knows the connection. -/
  | alone (conn : ConnId)
  /-- The connection may be registered at the place. -/
  | listed (conn : ConnId) (place : Place)
  /-- The connection was registered at the place. -/
  | delisted (conn : ConnId) (place : Place)
  deriving DecidableEq, Repr

namespace Claim

/-- The connection that is claimed. -/
def conn : Claim → ConnId
  | alone conn | listed conn _ | delisted conn _ => conn

/-- Where the connection may be registered. -/
def registered? : Claim → Option Place
  | listed _ place => some place
  | alone _ | delisted _ _ => none

/-- Where it shows that the connection was aborted. -/
def shown? : Claim → Option Place
  | listed _ place | delisted _ place => some place
  | alone _ => none

theorem shown?_of_registered? {claim : Claim} {place : Place}
    (h : claim.registered? = some place) : claim.shown? = some place := by
  cases claim with
  | listed => exact h
  | alone | delisted => cases h

end Claim

/-- What an execution of call `id` claims. -/
def CallStage.claim? (id : Nat) : CallStage → Option Claim
  | leased conn | releasing conn false _ => some (.alone conn)
  | registered conn | sending conn | receiving conn | exchanged conn (.ok _) =>
    some (.listed conn (.call id))
  | withdrawn conn (.ok _) => some (.delisted conn (.call id))
  | _ => none

/-- What a worker of batch `id` claims. -/
def WorkerStage.claim? (id : Nat) : WorkerStage → Option Claim
  | leased conn | releasing conn false => some (.alone conn)
  | ready conn slot | fetching conn slot | sending conn slot _ _ | receiving conn slot _ none
  | received conn slot _ _ _ none => some (.listed conn (.slot id slot))
  | _ => none

theorem WorkerStage.claim?_await {id : Nat} {conn : ConnId} {slot : Nat}
    {waiting : List BatchItem} :
    (await conn slot waiting none).claim? id = some (.listed conn (.slot id slot)) := by
  cases waiting <;> rfl

theorem WorkerStage.claim?_await_error {id : Nat} {conn : ConnId} {slot : Nat}
    {waiting : List BatchItem} {error : Error} :
    (await conn slot waiting (some error)).claim? id = none := by
  cases waiting <;> rfl

theorem WorkerStage.claim?_dispatch {id : Nat} {conn : ConnId} {slot : Nat}
    {sent todo : List BatchItem} :
    (dispatch conn slot sent todo).claim? id = some (.listed conn (.slot id slot)) := by
  cases todo with
  | nil => exact claim?_await
  | cons item todo => rfl

/-- What a task claims. -/
def Task.claim? : Task → Option Claim
  | executing id stage => stage.claim? id
  | working id stage => stage.claim? id
  | _ => none

/-- The claim is right: no operation has failed, the connection is registered nowhere else, and if
it has been aborted or will be that shows. -/
structure Claim.Holds (claim : Claim) (machine : Machine) (log : Log) : Prop where
  unfailed : ¬ log.Failed claim.conn
  registered : ∀ place, machine.Registers claim.conn place → claim.registered? = some place
  shown : Exposed machine log claim.conn → ∃ place, claim.shown? = some place ∧
    machine.Withdrawn place

/-- Every claim of a task is right, and of a connection that nobody holds nobody knows.  Of a
connection that a panic has struck nothing is said. -/
structure Exposure (machine : Machine) (log : Log) : Prop where
  spare : ∀ conn, conn ∈ machine.pool.idle ∨ machine.pool.opened < conn → ¬ log.Struck conn →
    (Claim.alone conn).Holds machine log
  claims : ∀ task ∈ machine.tasks, ∀ claim, task.claim? = some claim → ¬ log.Struck claim.conn →
    claim.Holds machine log
  /-- A cancellation that is about to fire has won. -/
  won : ∀ id, .cancelling id .claimed ∈ machine.tasks → machine.Withdrawn (.call id)

theorem CallStage.conn?_of_claim? {id : Nat} {stage : CallStage} {claim : Claim}
    (h : stage.claim? id = some claim) : (stage.grip id).conn? = some claim.conn := by
  unfold claim? at h
  split at h
  all_goals cases h
  all_goals rfl

theorem WorkerStage.conn?_of_claim? {id : Nat} {stage : WorkerStage} {claim : Claim}
    (h : stage.claim? id = some claim) : (stage.grip id).conn? = some claim.conn := by
  unfold claim? at h
  split at h
  all_goals cases h
  all_goals rfl

/-- A task claims the connection that it holds. -/
theorem Task.conn?_of_claim? {task : Task} {claim : Claim} (h : task.claim? = some claim) :
    task.grip.conn? = some claim.conn := by
  cases task with
  | executing id stage => exact CallStage.conn?_of_claim? h
  | working id stage => exact WorkerStage.conn?_of_claim? h
  | _ => cases h

/-- An execution does not rely on a slot. -/
theorem CallStage.not_slot_of_claim? {id batch n : Nat} {stage : CallStage} {claim : Claim}
    (h : stage.claim? id = some claim) : claim.shown? ≠ some (.slot batch n) := by
  unfold claim? at h
  split at h
  all_goals cases h
  all_goals exact nofun

/-- A worker that relies on a slot is one of the batch and not over. -/
theorem WorkerStage.live_of_claim? {id batch n : Nat} {stage : WorkerStage} {claim : Claim}
    (h : stage.claim? id = some claim) (hslot : claim.shown? = some (.slot batch n)) :
    id = batch ∧ stage.isOver = false := by
  unfold claim? at h
  split at h
  all_goals cases h
  all_goals cases hslot
  all_goals exact ⟨rfl, rfl⟩

/-! ## 2. Claims in a step -/

theorem Handling.unfailed {pool pool' : Pool} {grip grip' : Grip} {events : Log} {conn : ConnId}
    (h : Handling pool grip events pool' grip') (hconn : grip.conn? ≠ some conn) :
    ¬ Log.Failed events conn := by
  rintro ⟨subject?, operation, error, hmem, honConn⟩
  cases h with
  | rest hquiet => exact hquiet _ hmem
  | condemn hquiet => exact hquiet _ hmem
  | reuse hfound hquiet => exact hquiet _ hmem
  | refused hquiet =>
    rcases List.mem_cons.mp hmem with heq | hmem
    · cases heq
      cases honConn
    · exact hquiet _ hmem
  | failed hself =>
    cases List.mem_singleton.mp hmem
    exact hconn (hself.symm.trans honConn)
  | @gaveBack other broken => cases broken <;> simp [Pool.giveBackEvents, Pool.giveBack] at hmem
  | struck hself => simp [Pool.giveBackEvents, Pool.giveBack] at hmem
  | reserve => exact List.not_mem_nil hmem
  | connected | lost | sent | received => simp at hmem

section

variable {machine machine' : Machine} {mover? : Option Task} {log events : Log} {conn : ConnId}
  {place : Place} {claim : Claim}

/-- **A claim stays right** in a step that does not touch the connection. -/
theorem Claim.Holds.keep (hclaim : claim.Holds machine log)
    (h : Step machine mover? machine' events) (hordered : machine.Holds Team.InOrder log)
    (hwon : ∀ id, .cancelling id .claimed ∈ machine.tasks → machine.Withdrawn (.call id))
    (hlive : ∀ id n, claim.shown? = some (.slot id n) →
      ∃ worker ∈ machine.workers id, worker.isOver = false)
    (hother : mover?.bind Task.leased? ≠ some claim.conn)
    (hunfailed : ¬ Log.Failed events claim.conn) : claim.Holds machine' (log ++ events) := by
  have hregisters : ∀ place, machine'.Registers claim.conn place →
      machine.Registers claim.conn place :=
    fun place hplace => (h.registers hplace).resolve_right hother
  refine ⟨fun hfailed => ?_, fun place hplace => ?_, fun hexposed => ?_⟩
  · exact (Log.failed_append.mp hfailed).elim hclaim.unfailed hunfailed
  · exact hclaim.registered place (hregisters place hplace)
  · rcases h.exposed hwon hexposed with hbefore | ⟨place, hplace, hwithdrawn, -⟩ | ⟨id, rfl, -⟩
    · obtain ⟨place, hshown, hwithdrawn⟩ := hclaim.shown hbefore
      refine ⟨place, hshown, h.withdrawn hordered (fun id n hslot => ?_) hwithdrawn⟩
      exact hlive id n (hslot ▸ hshown)
    · exact ⟨place, Claim.shown?_of_registered? (hclaim.registered place hplace), hwithdrawn⟩
    · exact absurd rfl hother

/-- A connection that is withdrawn from its place is not registered any more. -/
theorem Claim.Holds.delist (h : (Claim.listed conn place).Holds machine log)
    (hgone : ¬ machine.Registers conn place) : (Claim.delisted conn place).Holds machine log := by
  refine ⟨h.unfailed, fun other hother => ?_, h.shown⟩
  cases h.registered other hother
  exact absurd hother hgone

/-- If nothing shows at its place a connection is unharmed. -/
theorem Claim.Holds.unexposed (h : claim.Holds machine log)
    (hclear : ∀ place, claim.shown? = some place → ¬ machine.Withdrawn place) :
    ¬ Exposed machine log claim.conn := by
  intro hexposed
  obtain ⟨place, hshown, hwithdrawn⟩ := h.shown hexposed
  exact hclear place hshown hwithdrawn

/-- If nothing shows at the place that a connection had, nobody knows it. -/
theorem Claim.Holds.retire (h : (Claim.delisted conn place).Holds machine log)
    (hclear : ¬ machine.Withdrawn place) : (Claim.alone conn).Holds machine log := by
  have hunexposed : ¬ Exposed machine log conn := by
    refine h.unexposed fun other hother => ?_
    cases hother
    exact hclear
  exact ⟨h.unfailed, h.registered, fun hexposed => absurd hexposed hunexposed⟩

/-- A connection that nobody knows is registered at one place. -/
theorem Claim.Holds.enlist (hclaim : (Claim.alone conn).Holds machine log)
    (h : Step machine mover? machine' [])
    (hwon : ∀ id, .cancelling id .claimed ∈ machine.tasks → machine.Withdrawn (.call id))
    (hregisters : ∀ other, machine'.Registers conn other →
      machine.Registers conn other ∨ other = place) :
    (Claim.listed conn place).Holds machine' (log ++ []) := by
  have hunregistered : ∀ other, ¬ machine.Registers conn other := by
    intro other hother
    cases hclaim.registered other hother
  refine ⟨?_, fun other hother => ?_, fun hnow => ?_⟩
  · rw [List.append_nil]
    exact hclaim.unfailed
  · rw [(hregisters other hother).resolve_left (hunregistered other)]
    rfl
  · rcases h.exposed hwon hnow with hbefore | ⟨other, hother, -⟩ | ⟨-, -, habort⟩
    · obtain ⟨other, hother, -⟩ := hclaim.shown hbefore
      cases hother
    · exact absurd hother (hunregistered other)
    · exact absurd habort List.not_mem_nil

end

namespace Exposure

section

variable {machine machine' : Machine} {log events : Log} {before after : List Task} {id : Nat}
  {pool' : Pool}

/-- A connection that nobody holds is leased: nobody else knows it. -/
theorem lease {mover? : Option Task} {conn : ConnId} (h : Exposure machine log)
    (hordered : machine.Holds Team.InOrder log) (hstep : Step machine mover? machine' events)
    (hspare : conn ∈ machine.pool.idle ∨ machine.pool.opened < conn)
    (hunstruck : ¬ log.Struck conn) (hother : mover?.bind Task.leased? ≠ some conn)
    (hunfailed : ¬ Log.Failed events conn) : (Claim.alone conn).Holds machine' (log ++ events) :=
  (h.spare conn hspare hunstruck).keep hstep hordered h.won (by simp [Claim.shown?]) hother
    hunfailed

/-- What an execution claims after its step is right. -/
theorem executing {stage stage' : CallStage} {call call' : Call} (h : Exposure machine log)
    (hordered : machine.Holds Team.InOrder log)
    (htasks : machine.tasks = before ++ .executing id stage :: after)
    (hfound : machine.calls[id]? = some call)
    (hmove : CallMove id machine.pool call stage pool' call' stage' events)
    (hmachine' : machine' = { machine with
      pool := pool'
      calls := machine.calls.set id call'
      tasks := before ++ .executing id stage' :: after }) :
    ∀ claim, stage'.claim? id = some claim → ¬ log.Struck claim.conn →
      claim.Holds machine' (log ++ events) := by
  have hstep : Step machine (some (.executing id stage)) machine' events :=
    hmachine' ▸ .executing htasks hfound hmove
  have hself : machine'.calls[id]? = some call' := by
    rw [hmachine', getElem?_set_or hfound, if_pos rfl]
  have hold : ∀ claim, stage.claim? id = some claim → ¬ log.Struck claim.conn →
      claim.Holds machine log :=
    h.claims (.executing id stage) (htasks ▸ List.mem_append_right _ (List.mem_cons_self ..))
  -- an execution that goes on using its connection
  have hstay : ∀ {claim}, stage.claim? id = some claim → (Task.executing id stage).leased? = none →
      ¬ Log.Failed events claim.conn → ¬ log.Struck claim.conn →
      claim.Holds machine' (log ++ events) := by
    intro claim hclaim hleased hunfailed hunstruck
    refine (hold _ hclaim hunstruck).keep hstep hordered h.won (fun other n hslot => ?_)
      (by rw [Option.bind_some, hleased]; simp) hunfailed
    exact absurd hslot (CallStage.not_slot_of_claim? hclaim)
  intro claim hclaim hunstruck
  cases hmove with
  | @reused _ conn idle hidle notice =>
    cases hclaim
    exact h.lease hordered hstep (.inl (hidle ▸ List.mem_cons_self ..)) hunstruck
      (by simp [Task.leased?]) (Log.unfailed_quiet (by simp [Event.IsQuiet]))
  | connected =>
    cases hclaim
    exact h.lease hordered hstep (.inr (Nat.lt_succ_self _)) hunstruck (by simp [Task.leased?])
      (by simp [Log.Failed])
  | @registered conn =>
    cases hclaim
    refine (hold _ rfl hunstruck).enlist hstep h.won fun place hplace => ?_
    cases hplace with
    | call hother habort =>
      rw [hmachine'] at hother
      rcases getElem?_of_set hother with ⟨rfl, -⟩ | hother
      · exact .inr rfl
      · exact .inl (.call hother habort)
    | slot hother habort =>
      rw [hmachine'] at hother
      exact .inl (.slot hother habort)
  | dispatched =>
    cases hclaim
    exact hstay rfl rfl (Log.unfailed_quiet (by simp [Event.IsQuiet])) hunstruck
  | sent =>
    cases hclaim
    exact hstay rfl rfl (by simp [Log.Failed]) hunstruck
  | received =>
    cases hclaim
    exact hstay rfl rfl (by simp [Log.Failed]) hunstruck
  | @withdrawn conn result =>
    cases result with
    | error error => cases hclaim
    | ok frame =>
      cases hclaim
      have hlisted : (Claim.listed conn (.call id)).Holds machine' (log ++ []) :=
        hstay rfl rfl (by simp [Log.Failed]) hunstruck
      refine hlisted.delist fun hregisters => ?_
      cases hregisters with
      | call hother habort =>
        cases hself.symm.trans hother
        cases habort
  | @beaten _ conn result => cases hclaim
  | @succeeded huncancelled conn frame =>
    cases hclaim
    have hdelisted : (Claim.delisted conn (.call id)).Holds machine' (log ++ []) :=
      hstay rfl rfl (by simp [Log.Failed]) hunstruck
    refine hdelisted.retire fun hwithdrawn => ?_
    cases hwithdrawn with
    | call hother hcancelled =>
      cases hself.symm.trans hother
      cases hcancelled
  | _ => cases hclaim

/-- A slot that was not empty is emptied by its worker: nobody has taken the abort handle, and now
nobody can. -/
theorem emptied {conn : ConnId} {slot : Nat} {batch : Batch} (h : Exposure machine log)
    (hlisted : (Claim.listed conn (.slot id slot)).Holds machine log)
    (hfound : machine.batches[id]? = some batch)
    (hstep : Step machine (some (.working id (.fetching conn slot))) machine' [])
    (hself : machine'.batches[id]? = some (batch.unregister slot).2)
    (hregistered : (batch.unregister slot).1 = true) :
    (Claim.alone conn).Holds machine' (log ++ []) := by
  have hunexposed : ¬ Exposed machine log conn := by
    refine hlisted.unexposed fun place hplace hwithdrawn => ?_
    cases hplace
    cases hwithdrawn with
    | slot hother habort =>
      cases hfound.symm.trans hother
      simp [Batch.unregister, List.getD_eq_getElem?_getD, habort] at hregistered
  refine ⟨?_, fun place hplace => ?_, fun hexposed => ?_⟩
  · rw [List.append_nil]
    exact hlisted.unfailed
  · have hbefore := (hstep.registers hplace).resolve_right (by simp [Task.leased?])
    cases hlisted.registered place hbefore
    cases hplace with
    | slot hother habort =>
      cases hself.symm.trans hother
      simp [Batch.unregister, List.getElem?_set] at habort
  · rcases hstep.exposed h.won hexposed with hbefore | ⟨_, _, _, hfree⟩ | ⟨_, hmover, _⟩
    · exact absurd hbefore hunexposed
    · cases hfree _ rfl
    · cases hmover

/-- What a worker claims after its step is right. -/
theorem working {stage stage' : WorkerStage} {batch batch' : Batch} (h : Exposure machine log)
    (hordered : machine.Holds Team.InOrder log)
    (htasks : machine.tasks = before ++ .working id stage :: after)
    (hfound : machine.batches[id]? = some batch)
    (hmove : WorkerMove id machine.depth machine.config.acquireTimeoutMs machine.pool batch stage
      pool' batch' stage' events)
    (hmachine' : machine' = { machine with
      pool := pool'
      batches := machine.batches.set id batch'
      tasks := before ++ .working id stage' :: after }) :
    ∀ claim, stage'.claim? id = some claim → ¬ log.Struck claim.conn →
      claim.Holds machine' (log ++ events) := by
  have hstep : Step machine (some (.working id stage)) machine' events :=
    hmachine' ▸ .working htasks hfound hmove
  have hself : machine'.batches[id]? = some batch' := by
    rw [hmachine', getElem?_set_or hfound, if_pos rfl]
  have hold : ∀ claim, stage.claim? id = some claim → ¬ log.Struck claim.conn →
      claim.Holds machine log :=
    h.claims (.working id stage) (htasks ▸ List.mem_append_right _ (List.mem_cons_self ..))
  have hgoing : ∃ worker ∈ machine.workers id, worker.isOver = false := by
    refine ⟨stage, ?_, hmove.not_over⟩
    rw [Machine.workers_eq, htasks, filterMap_around_some Task.worker?_self]
    exact List.mem_append_right _ (List.mem_cons_self ..)
  -- a worker that stays in its slot
  have hstay : ∀ {conn slot}, stage.claim? id = some (.listed conn (.slot id slot)) →
      (Task.working id stage).leased? = none → ¬ Log.Failed events conn → ¬ log.Struck conn →
      (Claim.listed conn (.slot id slot)).Holds machine' (log ++ events) := by
    intro conn slot hclaim hleased hunfailed hunstruck
    refine (hold _ hclaim hunstruck).keep hstep hordered h.won (fun other n hslot => ?_)
      (by rw [Option.bind_some, hleased]; simp) hunfailed
    cases hslot
    exact hgoing
  intro claim hclaim hunstruck
  cases hmove with
  | @reused hwaiting conn idle hidle notice =>
    cases hclaim
    exact h.lease hordered hstep (.inl (hidle ▸ List.mem_cons_self ..)) hunstruck
      (by simp [Task.leased?]) (Log.unfailed_quiet (by simp [Event.IsQuiet]))
  | connected =>
    cases hclaim
    exact h.lease hordered hstep (.inr (Nat.lt_succ_self _)) hunstruck (by simp [Task.leased?])
      (by simp [Log.Failed])
  | @registered hwaiting conn =>
    cases hclaim
    refine (hold _ rfl hunstruck).enlist hstep h.won fun place hplace => ?_
    cases hplace with
    | call hother habort =>
      rw [hmachine'] at hother
      exact .inl (.call hother habort)
    | @slot other n _ hother habort =>
      rw [hmachine'] at hother
      rcases getElem?_of_set hother with ⟨rfl, rfl⟩ | hother
      · rcases getElem?_of_append_singleton habort with habort | ⟨rfl, -⟩
        · exact .inl (.slot hfound habort)
        · exact .inr rfl
      · exact .inl (.slot hother habort)
  | wentOn =>
    cases hclaim
    exact hstay rfl rfl (by simp [Log.Failed]) hunstruck
  | @drained conn slot hempty =>
    cases hregistered : (batch.unregister slot).1 with
    | false =>
      rw [hregistered] at hclaim
      cases hclaim
    | true =>
      rw [hregistered] at hclaim
      cases hclaim
      exact h.emptied (hold _ rfl hunstruck) hfound hstep hself hregistered
  | fetched =>
    cases hclaim
    exact hstay rfl rfl (by simp [Log.Failed]) hunstruck
  | @sent conn slot item sent todo =>
    rw [WorkerStage.claim?_dispatch] at hclaim
    cases hclaim
    exact hstay rfl rfl (by simp [Log.Failed]) hunstruck
  | sendFailed =>
    rw [WorkerStage.claim?_await_error] at hclaim
    cases hclaim
  | @received conn slot item waiting sendError frame =>
    cases sendError with
    | some error => cases hclaim
    | none =>
      cases hclaim
      exact hstay rfl rfl (by simp [Log.Failed]) hunstruck
  | @reported conn slot item frame waiting sendError =>
    cases sendError with
    | some error =>
      rw [WorkerStage.claim?_await_error] at hclaim
      cases hclaim
    | none =>
      rw [WorkerStage.claim?_await] at hclaim
      cases hclaim
      exact hstay rfl rfl (Log.unfailed_quiet (by simp [Event.IsQuiet])) hunstruck
  | _ => cases hclaim

/-- A connection that an execution has given back is known to nobody. -/
theorem executing_idle {stage stage' : CallStage} {call call' : Call} {conn : ConnId}
    (h : Exposure machine log) (hordered : machine.Holds Team.InOrder log)
    (htasks : machine.tasks = before ++ .executing id stage :: after)
    (hmove : CallMove id machine.pool call stage pool' call' stage' events)
    (hstep : Step machine (some (.executing id stage)) machine' events)
    (hconn : (stage.grip id).conn? = some conn) (hbusy : conn ∉ machine.pool.idle)
    (hidle : conn ∈ pool'.idle) (hunstruck : ¬ (log ++ events).Struck conn) :
    (Claim.alone conn).Holds machine' (log ++ events) := by
  rw [Log.struck_append, not_or] at hunstruck
  cases hmove with
  | @released other broken result =>
    cases broken with
    | true => exact absurd hidle hbusy
    | false =>
      cases hconn
      have hclaim := h.claims (.executing id (.releasing conn false result))
        (htasks ▸ List.mem_append_right _ (List.mem_cons_self ..)) _ rfl hunstruck.1
      exact hclaim.keep hstep hordered h.won (by simp [Claim.shown?]) (by simp [Task.leased?])
        (by simp [Log.Failed, Pool.giveBackEvents, Pool.giveBack])
  | panicked hholding honConn =>
    cases hconn.symm.trans hholding
    exact absurd ⟨_, _, List.mem_cons_self .., honConn⟩ hunstruck.2
  | reused | reserved | connected | connectFailed | connectPanicked => cases hconn
  | _ => exact absurd hidle hbusy

/-- A connection that a worker has given back is known to nobody. -/
theorem working_idle {stage stage' : WorkerStage} {batch batch' : Batch} {conn : ConnId}
    (h : Exposure machine log) (hordered : machine.Holds Team.InOrder log)
    (htasks : machine.tasks = before ++ .working id stage :: after)
    (hmove : WorkerMove id machine.depth machine.config.acquireTimeoutMs machine.pool batch stage
      pool' batch' stage' events)
    (hstep : Step machine (some (.working id stage)) machine' events)
    (hconn : (stage.grip id).conn? = some conn) (hbusy : conn ∉ machine.pool.idle)
    (hidle : conn ∈ pool'.idle) (hunstruck : ¬ (log ++ events).Struck conn) :
    (Claim.alone conn).Holds machine' (log ++ events) := by
  rw [Log.struck_append, not_or] at hunstruck
  cases hmove with
  | @released other broken =>
    cases broken with
    | true => exact absurd hidle hbusy
    | false =>
      cases hconn
      have hclaim := h.claims (.working id (.releasing conn false))
        (htasks ▸ List.mem_append_right _ (List.mem_cons_self ..)) _ rfl hunstruck.1
      exact hclaim.keep hstep hordered h.won (by simp [Claim.shown?]) (by simp [Task.leased?])
        (by simp [Log.Failed, Pool.giveBackEvents, Pool.giveBack])
  | panicked hholding honConn =>
    cases hconn.symm.trans hholding
    exact absurd ⟨_, _, List.mem_cons_self .., honConn⟩ hunstruck.2
  | reused | reserved | connected | connectFailed | connectPanicked => cases hconn
  | _ => exact absurd hidle hbusy

end

end Exposure

/-! ## 3. Every run -/

section

variable {machine machine' : Machine} {mover? : Option Task} {log events : Log} {conn : ConnId}

theorem Task.conn?_of_leased? {task : Task} (h : task.leased? = some conn) :
    task.grip.conn? = some conn := by
  unfold leased? at h
  split at h
  all_goals cases h
  all_goals rfl

/-- Whoever relies on a slot is a worker that is not over. -/
theorem Machine.live_of_claim {task : Task} {claim : Claim} (htask : task ∈ machine.tasks)
    (hclaim : task.claim? = some claim) (id n : Nat) (hslot : claim.shown? = some (.slot id n)) :
    ∃ worker ∈ machine.workers id, worker.isOver = false := by
  cases task with
  | executing other stage => exact absurd hslot (CallStage.not_slot_of_claim? hclaim)
  | working other stage =>
    obtain ⟨rfl, hover⟩ := WorkerStage.live_of_claim? hclaim hslot
    refine ⟨stage, ?_, hover⟩
    rw [Machine.workers_eq]
    exact List.mem_filterMap.mpr ⟨_, htask, Task.worker?_self⟩
  | _ => cases hclaim

/-- A claim on a connection that the task of a step does not hold. -/
theorem Claim.Holds.apart {claim : Claim} (hclaim : claim.Holds machine log)
    (h : Exposure machine log) (hordered : machine.Holds Team.InOrder log)
    (hstep : Step machine mover? machine' events)
    (hlive : ∀ id n, claim.shown? = some (.slot id n) →
      ∃ worker ∈ machine.workers id, worker.isOver = false)
    (hapart : ∀ mover ∈ mover?, mover.grip.conn? ≠ some claim.conn) :
    claim.Holds machine' (log ++ events) := by
  refine hclaim.keep hstep hordered h.won hlive (fun hleased => ?_) ?_
  · obtain ⟨mover, hmover, hleased⟩ := Option.bind_eq_some_iff.mp hleased
    exact hapart mover hmover (Task.conn?_of_leased? hleased)
  · rcases hstep.grips with ⟨before, after, mover, grip', hmover, -, -, hhandling⟩ |
      ⟨n, -, -, -, hquiet⟩
    · exact hhandling.unfailed (hapart mover hmover)
    · exact Log.unfailed_quiet hquiet

/-- A connection that another task holds is not that of the task of a step. -/
theorem Machine.apart_of_mem {before after : List Task} {mover task : Task}
    (hholdings : Holdings machine.pool machine.grips log)
    (htasks : machine.tasks = before ++ mover :: after) (htask : task ∈ before ++ after)
    (hconn : task.grip.conn? = some conn) : mover.grip.conn? ≠ some conn := by
  intro hself
  rw [Machine.grips, htasks, List.map_append, List.map_cons] at hholdings
  refine (hholdings.apart hself).2.2 task.grip ?_ hconn
  rw [← List.map_append]
  exact List.mem_map_of_mem htask

theorem Handling.opened_le {pool pool' : Pool} {grip grip' : Grip}
    (h : Handling pool grip events pool' grip') : pool.opened ≤ pool'.opened := by
  cases h with
  | connected => exact Nat.le_succ _
  | _ => exact Nat.le_refl _

/-- A connection that becomes spare is known to nobody. -/
theorem Exposure.spare_step (h : Exposure machine log) (hordered : machine.Holds Team.InOrder log)
    (hholdings : Holdings machine.pool machine.grips log)
    (hstep : Step machine mover? machine' events)
    (hspare : conn ∈ machine'.pool.idle ∨ machine'.pool.opened < conn)
    (hnew : ¬ (log ++ events).Struck conn) :
    (Claim.alone conn).Holds machine' (log ++ events) := by
  by_cases hheld : ∃ mover ∈ mover?, mover.grip.conn? = some conn
  · obtain ⟨mover, hmover, hconn⟩ := hheld
    rcases hstep.grips with ⟨before, after, mover', grip', hmover', hgrips, -, hhandling⟩ |
      ⟨n, hfree, -⟩
    · cases hmover.symm.trans hmover'
      rw [hgrips] at hholdings
      obtain ⟨hbusy, hopened, -⟩ := hholdings.apart hconn
      have hidle := hspare.resolve_right (Nat.not_lt.mpr (Nat.le_trans hopened hhandling.opened_le))
      cases hmover
      have htaken := hstep
      cases hstep with
      | executing htasks hfound hmove =>
        exact h.executing_idle hordered htasks hmove htaken hconn hbusy hidle hnew
      | working htasks hfound hmove =>
        exact h.working_idle hordered htasks hmove htaken hconn hbusy hidle hnew
      | cancelling | collecting | stopping => cases hconn
    · rw [hfree mover hmover] at hconn
      cases hconn
  · have hapart : ∀ mover ∈ mover?, mover.grip.conn? ≠ some conn :=
      fun mover hmover hconn => hheld ⟨mover, hmover, hconn⟩
    have hbefore : conn ∈ machine.pool.idle ∨ machine.pool.opened < conn := by
      rcases hstep.grips with ⟨before, after, mover, grip', hmover, -, -, hhandling⟩ |
        ⟨n, -, hpool, -⟩
      · exact hhandling.spare_before (hapart mover hmover) hspare
      · rwa [hpool] at hspare
    exact (h.spare conn hbefore (Log.unstruck_of_append hnew)).apart h hordered hstep
      (by simp [Claim.shown?]) hapart

/-- What the tasks claim after a step is right. -/
theorem Exposure.claims_step (h : Exposure machine log)
    (hordered : machine.Holds Team.InOrder log)
    (hholdings : Holdings machine.pool machine.grips log)
    (hstep : Step machine mover? machine' events) :
    ∀ task ∈ machine'.tasks, ∀ claim, task.claim? = some claim →
      ¬ (log ++ events).Struck claim.conn → claim.Holds machine' (log ++ events) := by
  intro task htask claim hclaim hnew
  have hunstruck : ¬ log.Struck claim.conn := Log.unstruck_of_append hnew
  -- the claim of a task that does not move
  have hother : task ∈ machine.tasks →
      (∀ mover ∈ mover?, mover.grip.conn? ≠ some claim.conn) →
      claim.Holds machine' (log ++ events) := fun htask hapart =>
    (h.claims task htask claim hclaim hunstruck).apart h hordered hstep
      (Machine.live_of_claim htask hclaim) hapart
  have hapart : ∀ {before after : List Task} {mover : Task},
      machine.tasks = before ++ mover :: after → task ∈ before ++ after →
      ∀ other ∈ some mover, other.grip.conn? ≠ some claim.conn := by
    rintro before after mover htasks hmem _ ⟨⟩
    exact Machine.apart_of_mem hholdings htasks hmem (Task.conn?_of_claim? hclaim)
  have hinert : ∀ {added : List Task}, (∀ task ∈ added, task.claim? = none) → task ∉ added := by
    intro added hnothing hmem
    rw [hnothing task hmem] at hclaim
    cases hclaim
  have htaken := hstep
  cases hstep with
  | newCall | newBatch | addItem => exact hother htask (by simp)
  | spawn hfresh =>
    refine hother ((List.mem_append.mp htask).resolve_right (hinert ?_)) (by simp)
    cases hfresh <;> exact List.forall_mem_singleton.mpr rfl
  | enqueue | poll =>
    exact hother ((List.mem_append.mp htask).resolve_right
      (hinert (List.forall_mem_singleton.mpr rfl))) (by simp)
  | executing htasks hfound hmove =>
    rcases mem_around.mp htask with hmem | rfl
    · exact hother (htasks ▸ mem_around.mpr (.inl hmem)) (hapart htasks hmem)
    · exact h.executing hordered htasks hfound hmove rfl claim hclaim hunstruck
  | cancelling htasks hfound hmove =>
    rcases mem_around.mp htask with hmem | rfl
    · exact hother (htasks ▸ mem_around.mpr (.inl hmem)) (hapart htasks hmem)
    · cases hclaim
  | collecting htasks hfound hmove =>
    have htask := (List.mem_append.mp htask).resolve_right
      (hinert fun task hmem => by rw [(List.mem_replicate.mp hmem).2]; rfl)
    rcases mem_around.mp htask with hmem | rfl
    · exact hother (htasks ▸ mem_around.mpr (.inl hmem)) (hapart htasks hmem)
    · cases hclaim
  | working htasks hfound hmove =>
    rcases mem_around.mp htask with hmem | rfl
    · exact hother (htasks ▸ mem_around.mpr (.inl hmem)) (hapart htasks hmem)
    · exact h.working hordered htasks hfound hmove rfl claim hclaim hunstruck
  | stopping htasks hfound hmove =>
    rcases mem_around.mp htask with hmem | rfl
    · exact hother (htasks ▸ mem_around.mpr (.inl hmem)) (hapart htasks hmem)
    · cases hclaim

/-- A cancellation that is about to fire has won. -/
theorem Exposure.won_step (h : Exposure machine log) (hordered : machine.Holds Team.InOrder log)
    (hstep : Step machine mover? machine' events) {id : Nat}
    (hmem : .cancelling id .claimed ∈ machine'.tasks) : machine'.Withdrawn (.call id) := by
  have hold : .cancelling id .claimed ∈ machine.tasks → machine'.Withdrawn (.call id) :=
    fun hmem => hstep.withdrawn hordered (fun _ _ hslot => absurd hslot (by simp)) (h.won id hmem)
  cases hstep with
  | newCall | newBatch | addItem => exact hold hmem
  | spawn hfresh =>
    refine hold ((List.mem_append.mp hmem).resolve_right fun hmem => ?_)
    cases List.mem_singleton.mp hmem
    cases hfresh
  | enqueue | poll =>
    exact hold ((List.mem_append.mp hmem).resolve_right (by simp))
  | executing htasks hfound hmove | working htasks hfound hmove
  | stopping htasks hfound hmove =>
    rcases mem_around.mp hmem with hmem | hself
    · exact hold (htasks ▸ mem_around.mpr (.inl hmem))
    · cases hself
  | collecting htasks hfound hmove =>
    have hmem := (List.mem_append.mp hmem).resolve_right (by simp)
    rcases mem_around.mp hmem with hmem | hself
    · exact hold (htasks ▸ mem_around.mpr (.inl hmem))
    · cases hself
  | cancelling htasks hfound hmove =>
    rcases mem_around.mp hmem with hmem | hself
    · exact hold (htasks ▸ mem_around.mpr (.inl hmem))
    · cases hself
      cases hmove with
      | won => exact .call (getElem?_set_or hfound) (by rw [if_pos rfl]; rfl)

/-- **Every step keeps the claims right.** -/
theorem Exposure.step (h : Exposure machine log) (hordered : machine.Holds Team.InOrder log)
    (hholdings : Holdings machine.pool machine.grips log)
    (hstep : Step machine mover? machine' events) : Exposure machine' (log ++ events) where
  spare _ := h.spare_step hordered hholdings hstep
  claims := h.claims_step hordered hholdings hstep
  won _ := h.won_step hordered hstep

end

/-- **Nobody uses a connection that may be aborted unawares**, in every run. -/
theorem World.Reachable.exposure {config : Config} {world : World} (h : Reachable config world) :
    Exposure world.machine world.log := by
  have hunexposed : ∀ conn, ¬ Exposed (.new config) [] conn := by
    rintro conn (haborted | ⟨task, htask, -⟩)
    · exact List.not_mem_nil haborted
    · exact List.not_mem_nil htask
  have hunregistered : ∀ conn place, ¬ (Machine.new config).Registers conn place := by
    rintro conn _ (⟨hfound, -⟩ | ⟨hfound, -⟩) <;> cases hfound
  have hnew : Exposure (.new config) [] := by
    refine ⟨fun conn _ _ => ?_, List.forall_mem_nil _, fun _ hmem => absurd hmem List.not_mem_nil⟩
    exact ⟨fun ⟨_, _, _, hmem, _⟩ => List.not_mem_nil hmem,
      fun place hplace => absurd hplace (hunregistered conn place),
      fun hexposed => absurd hexposed (hunexposed conn)⟩
  refine @Reachable.induct config Exposure hnew
    (fun {machine mover? machine' log events} hbefore hexposure hstep => ?_) world h
  exact hexposure.step (hbefore.holds Team.InOrder.lasting) hbefore.holdings hstep

end RemoteCall.Client
