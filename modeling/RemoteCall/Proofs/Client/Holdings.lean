/-
# Where the connections are

A connection that was opened is idle in the pool, held by one task, or closed (`Holdings.once`), and
the pool counts as leased what the tasks hold, a slot or a connection, and the slots that were lost
when connecting panicked (`Holdings.leased_eq`).  Both follow from what a step does with the pool,
whichever task takes it.
-/
import RemoteCall.Proofs.Client.Step

namespace RemoteCall.Client

/-! ## 1. What the tasks of a client hold -/

/-- What the tasks hold. -/
def Machine.grips (machine : Machine) : List Grip := machine.tasks.map Task.grip

theorem CancelMove.quiet {call call' : Call} {stage stage' : CancelStage} {events : List Event}
    (h : CancelMove call stage call' stage' events) : ∀ event ∈ events, event.IsQuiet := by
  cases h <;> simp [Event.IsQuiet]

theorem CollectorMove.quiet {id limit hired : Nat} {crew : Crew} {batch batch' : Batch}
    {collector collector' : Collector} {events : List Event}
    (h : CollectorMove id limit crew batch collector batch' collector' hired events) :
    ∀ event ∈ events, event.IsQuiet := by
  cases h <;> simp [Event.IsQuiet]

theorem StopMove.quiet {batch batch' : Batch} {stage stage' : StopStage} {events : List Event}
    (h : StopMove batch stage batch' stage' events) : ∀ event ∈ events, event.IsQuiet := by
  cases h <;> simp [Event.IsQuiet]

/-- **What a step does to what the tasks hold**: the task that takes it does something with the
pool, or it holds nothing, the pool stays as it is, and tasks that hold nothing are added. -/
theorem Step.grips {machine machine' : Machine} {mover? : Option Task} {events : List Event}
    (h : Step machine mover? machine' events) :
    (∃ before after mover grip', mover? = some mover ∧
      machine.grips = before ++ mover.grip :: after ∧ machine'.grips = before ++ grip' :: after ∧
      Handling machine.pool mover.grip events machine'.pool grip') ∨
    ∃ n, (∀ mover ∈ mover?, mover.grip = .free) ∧ machine'.pool = machine.pool ∧
      machine'.grips = machine.grips ++ List.replicate n .free ∧
      ∀ event ∈ events, event.IsQuiet := by
  have hnone : ∀ mover ∈ (none : Option Task), mover.grip = .free := fun _ h => absurd h (by simp)
  cases h with
  | newCall request decoder =>
    exact .inr ⟨0, hnone, rfl, (List.append_nil _).symm, List.forall_mem_nil _⟩
  | newBatch hknown => exact .inr ⟨0, hnone, rfl, (List.append_nil _).symm, List.forall_mem_nil _⟩
  | addItem hfound hallowed =>
    exact .inr ⟨0, hnone, rfl, (List.append_nil _).symm, List.forall_mem_nil _⟩
  | spawn hfresh =>
    refine .inr ⟨1, hnone, rfl, ?_, List.forall_mem_nil _⟩
    cases hfresh <;> exact List.map_append
  | enqueue hfound hunstarted => exact .inr ⟨1, hnone, rfl, List.map_append, List.forall_mem_nil _⟩
  | poll hfound => exact .inr ⟨1, hnone, rfl, List.map_append, List.forall_mem_nil _⟩
  | @executing before after id stage stage' call call' pool' events htasks hfound hmove =>
    refine .inl ⟨before.map Task.grip, after.map Task.grip, _, _, rfl, ?_, ?_, hmove.handling⟩
    · rw [Machine.grips, htasks, List.map_append, List.map_cons]
    · rw [Machine.grips, List.map_append, List.map_cons]
      rfl
  | cancelling htasks hfound hmove =>
    refine .inr ⟨0, by rintro _ ⟨⟩; rfl, rfl, ?_, hmove.quiet⟩
    rw [Machine.grips, Machine.grips, htasks]
    simp [Task.grip]
  | @collecting before after id hired collector collector' batch batch' events htasks hfound
      hmove =>
    refine .inr ⟨hired, by rintro _ ⟨⟩; rfl, rfl, ?_, hmove.quiet⟩
    rw [Machine.grips, Machine.grips, htasks]
    simp only [List.map_append, List.map_cons, List.map_replicate]
    rfl
  | @working before after id stage stage' batch batch' pool' events htasks hfound hmove =>
    refine .inl ⟨before.map Task.grip, after.map Task.grip, _, _, rfl, ?_, ?_, hmove.handling⟩
    · rw [Machine.grips, htasks, List.map_append, List.map_cons]
    · rw [Machine.grips, List.map_append, List.map_cons]
      rfl
  | stopping htasks hfound hmove =>
    refine .inr ⟨0, by rintro _ ⟨⟩; rfl, rfl, ?_, hmove.quiet⟩
    rw [Machine.grips, Machine.grips, htasks]
    simp [Task.grip]

/-! ## 2. The log of a step -/

section

variable {log events : Log}

theorem Log.closed_append : (log ++ events).closed = log.closed ++ Log.closed events := by
  unfold Log.closed
  rw [List.filterMap_append]

theorem Log.lostSlots_append :
    (log ++ events).lostSlots = log.lostSlots + Log.lostSlots events := by
  unfold Log.lostSlots
  rw [List.countP_append]

theorem Log.closed_exchange {subject? : Option Subject} {operation : Operation} {answer : Answer} :
    Log.closed (.exchange subject? operation answer :: events) = Log.closed events := rfl

theorem Log.closed_quiet (h : ∀ event ∈ events, event.IsQuiet) : Log.closed events = [] := by
  refine List.filterMap_eq_nil_iff.mpr fun event hevent => ?_
  have hquiet := h event hevent
  cases event with
  | effect effect =>
    cases effect with
    | close conn => exact hquiet.elim
    | _ => rfl
  | _ => rfl

theorem Log.lostSlots_quiet (h : ∀ event ∈ events, event.IsQuiet) : Log.lostSlots events = 0 := by
  refine List.countP_eq_zero.mpr fun event hevent => ?_
  have hquiet := h event hevent
  cases event with
  | exchange => exact hquiet.elim
  | _ => exact Bool.false_ne_true

/-- What the end of a lease closes. -/
theorem Pool.closed_giveBackEvents (pool : Pool) (conn : ConnId) (broken : Bool) :
    Log.closed (pool.giveBackEvents conn broken) = if broken then [conn] else [] := by
  cases broken <;> rfl

theorem Pool.lostSlots_giveBackEvents (pool : Pool) (conn : ConnId) (broken : Bool) :
    Log.lostSlots (pool.giveBackEvents conn broken) = 0 := by
  cases broken <;> rfl

/-- An operation on a connection loses no slot, however it goes. -/
theorem Log.lostSlots_exchange {subject? : Option Subject} {operation : Operation} {answer : Answer}
    {conn : ConnId} (h : operation.conn? = some conn) :
    Log.lostSlots (.exchange subject? operation answer :: events) = Log.lostSlots events := by
  cases operation with
  | connect => cases h
  | _ => rfl

end

/-! ## 3. Every connection is in one place -/

/-- Whether a connection has been opened, as a number. -/
def Pool.openedCount (pool : Pool) (conn : ConnId) : Nat :=
  if 1 ≤ conn ∧ conn ≤ pool.opened then 1 else 0

/-- How often a connection is held. -/
def heldCount (grips : List Grip) (conn : ConnId) : Nat :=
  (grips.filterMap Grip.conn?).count conn

/-- How many hold a slot or a connection. -/
def holdersOf (grips : List Grip) : Nat := grips.countP (· ≠ .free)

/-- Where the connections of a client are. -/
structure Holdings (pool : Pool) (grips : List Grip) (log : Log) : Prop where
  /-- A connection that was opened is idle, held or closed, and no two of these at once. -/
  once : ∀ conn, log.closed.count conn + pool.idle.count conn + heldCount grips conn =
    pool.openedCount conn
  leased_eq : pool.leased = holdersOf grips + log.lostSlots

section

variable {pool pool' : Pool} {before after grips : List Grip} {grip grip' : Grip}
  {log events : Log}

theorem heldCount_around (conn : ConnId) :
    heldCount (before ++ grip :: after) conn =
      heldCount before conn + heldCount [grip] conn + heldCount after conn := by
  unfold heldCount
  rw [← List.singleton_append, List.filterMap_append, List.filterMap_append, List.count_append,
    List.count_append, Nat.add_assoc]

theorem holdersOf_around : holdersOf (before ++ grip :: after) =
    holdersOf before + holdersOf [grip] + holdersOf after := by
  unfold holdersOf
  rw [← List.singleton_append, List.countP_append, List.countP_append, Nat.add_assoc]

@[simp] theorem heldCount_free (conn : ConnId) : heldCount [.free] conn = 0 := rfl

@[simp] theorem heldCount_slot (conn : ConnId) : heldCount [.slot] conn = 0 := rfl

@[simp] theorem heldCount_holds (other conn : ConnId) (owed? : Option (List Subject)) :
    heldCount [.holds other owed?] conn = if other = conn then 1 else 0 := by
  simp [heldCount, Grip.conn?, List.count_singleton]

/-- Whatever a task does with the pool, a connection stays in one place. -/
theorem Handling.conserves (h : Handling pool grip events pool' grip') (conn : ConnId) :
    (Log.closed events).count conn + pool'.idle.count conn + heldCount [grip'] conn +
      pool.openedCount conn =
    pool.idle.count conn + heldCount [grip] conn + pool'.openedCount conn := by
  cases h with
  | rest hquiet => rw [Log.closed_quiet hquiet, List.count_nil, Nat.zero_add]
  | condemn hquiet =>
    rw [Log.closed_quiet hquiet, List.count_nil, Nat.zero_add, heldCount_holds, heldCount_holds]
  | @reuse other idle hfound _ hquiet =>
    rw [Log.closed_quiet hquiet, hfound, heldCount_holds, heldCount_free, List.count_cons]
    simp only [List.count_nil, beq_iff_eq, Pool.openedCount]
    omega
  | reserve =>
    rw [heldCount_slot, heldCount_free]
    exact congrArg (· + _) (congrArg (· + _) (Nat.zero_add _))
  | connected =>
    rw [Log.closed_exchange, heldCount_holds, heldCount_slot]
    simp only [Pool.openedCount, Log.closed, List.filterMap_nil, List.count_nil]
    by_cases hself : pool.opened + 1 = conn
    · subst hself
      simp
    · have hsame : conn ≤ pool.opened + 1 ↔ conn ≤ pool.opened :=
        ⟨fun hle => Nat.le_of_lt_succ (Nat.lt_of_le_of_ne hle (Ne.symm hself)), Nat.le_succ_of_le⟩
      simp only [if_neg hself, hsame, Nat.zero_add, Nat.add_zero]
  | refused hquiet =>
    rw [Log.closed_exchange, Log.closed_quiet hquiet, List.count_nil, Nat.zero_add]
    rfl
  | lost => simp [Log.closed]
  | sent => simp [Log.closed]
  | received => simp [Log.closed]
  | failed => simp [Log.closed]
  | @gaveBack other broken owed? hlevel =>
    rw [Pool.closed_giveBackEvents, heldCount_holds, heldCount_free]
    cases broken with
    | true =>
      simp [Pool.release, List.count_cons, Pool.openedCount]
      omega
    | false =>
      simp [Pool.release, List.count_cons, Pool.openedCount]
  | @struck other subject operation owed? honConn =>
    rw [Log.closed_exchange, Pool.closed_giveBackEvents, heldCount_holds, heldCount_free]
    simp [Pool.release, List.count_cons, Pool.openedCount]

@[simp] theorem holdersOf_free : holdersOf [.free] = 0 := rfl

@[simp] theorem holdersOf_holds (conn : ConnId) (owed? : Option (List Subject)) :
    holdersOf [.holds conn owed?] = 1 := rfl

/-- Whatever a task does with the pool, the pool counts what is held and what is lost. -/
theorem Handling.counts (h : Handling pool grip events pool' grip')
    (hcounted : holdersOf [grip] ≤ pool.leased) :
    pool'.leased + holdersOf [grip] =
      pool.leased + holdersOf [grip'] + Log.lostSlots events := by
  cases h with
  | rest hquiet => rw [Log.lostSlots_quiet hquiet, Nat.add_zero]
  | condemn hquiet =>
    rw [Log.lostSlots_quiet hquiet, holdersOf_holds, holdersOf_holds, Nat.add_zero]
  | reuse hfound hquiet => rw [Log.lostSlots_quiet hquiet, holdersOf_free, holdersOf_holds]
  | reserve => rfl
  | connected => rfl
  | @refused error events hquiet =>
    have hnone : Log.lostSlots (.exchange none .connect (.failed error) :: events) =
        Log.lostSlots events := rfl
    rw [hnone, Log.lostSlots_quiet hquiet, holdersOf_free]
    exact Nat.sub_add_cancel hcounted
  | lost => rfl
  | sent => rfl
  | received => rfl
  | failed honConn => rw [Log.lostSlots_exchange honConn, holdersOf_holds, holdersOf_holds]; rfl
  | gaveBack hlevel =>
    rw [Pool.lostSlots_giveBackEvents, holdersOf_free]
    exact Nat.sub_add_cancel hcounted
  | struck honConn =>
    rw [Log.lostSlots_exchange honConn, Pool.lostSlots_giveBackEvents, holdersOf_free]
    exact Nat.sub_add_cancel hcounted

namespace Holdings

theorem handle (h : Holdings pool (before ++ grip :: after) log)
    (hhandling : Handling pool grip events pool' grip') :
    Holdings pool' (before ++ grip' :: after) (log ++ events) := by
  have hleased := h.leased_eq
  rw [holdersOf_around] at hleased
  constructor
  · intro conn
    have honce := h.once conn
    have hconserves := hhandling.conserves conn
    rw [heldCount_around] at honce ⊢
    rw [Log.closed_append, List.count_append]
    omega
  · have hcounts := hhandling.counts (by omega)
    rw [holdersOf_around, Log.lostSlots_append]
    omega

theorem add_free (h : Holdings pool grips log) (n : Nat)
    (hquiet : ∀ event ∈ events, event.IsQuiet) :
    Holdings pool (grips ++ List.replicate n .free) (log ++ events) := by
  have hheld : ∀ conn, heldCount (grips ++ List.replicate n .free) conn = heldCount grips conn := by
    intro conn
    rw [heldCount, List.filterMap_append, List.filterMap_replicate_of_none rfl, List.append_nil]
    rfl
  have hholders : holdersOf (grips ++ List.replicate n .free) = holdersOf grips := by
    simp [holdersOf, List.countP_replicate]
  constructor
  · intro conn
    rw [Log.closed_append, Log.closed_quiet hquiet, List.append_nil, hheld]
    exact h.once conn
  · rw [hholders, Log.lostSlots_append, Log.lostSlots_quiet hquiet]
    exact h.leased_eq

end Holdings

end

/-! ## 4. Every run -/

/-- A connection that is held is neither idle nor closed nor held by another. -/
theorem Holdings.apart {pool : Pool} {before after : List Grip} {grip : Grip} {log : Log}
    {conn : ConnId} (h : Holdings pool (before ++ grip :: after) log)
    (hconn : grip.conn? = some conn) :
    conn ∉ pool.idle ∧ conn ≤ pool.opened ∧
      ∀ other ∈ before ++ after, other.conn? ≠ some conn := by
  have honce := h.once conn
  have hself : heldCount [grip] conn = 1 := by
    simp [heldCount, hconn]
  have hle : pool.openedCount conn ≤ 1 := by
    unfold Pool.openedCount
    split <;> omega
  rw [heldCount_around, hself] at honce
  refine ⟨fun hidle => ?_, ?_, fun other hother hheld => ?_⟩
  · have hpos := List.count_pos_iff.mpr hidle
    omega
  · unfold Pool.openedCount at honce
    split at honce
    · exact ‹_ ∧ _›.2
    · omega
  · have hmem : conn ∈ (before ++ after).filterMap Grip.conn? :=
      List.mem_filterMap.mpr ⟨other, hother, hheld⟩
    have hpos := List.count_pos_iff.mpr hmem
    rw [List.filterMap_append, List.count_append] at hpos
    unfold heldCount at honce
    omega

/-- **Where the connections are**, in every run. -/
theorem World.Reachable.holdings {config : Config} {world : World} (h : Reachable config world) :
    Holdings world.machine.pool world.machine.grips world.log := by
  have hnew : Holdings (Machine.new config).pool (Machine.new config).grips [] := by
    refine ⟨fun conn => ?_, rfl⟩
    have hnone : (Pool.new config.maxConnections).openedCount conn = 0 := by
      unfold Pool.openedCount Pool.new
      exact if_neg fun h => absurd (Nat.le_trans h.1 h.2) (by simp)
    exact hnone.symm
  refine @Reachable.induct config (fun machine log => Holdings machine.pool machine.grips log) hnew
    (fun {machine mover? machine' log events} _ hholdings hstep => ?_) world h
  rcases hstep.grips with ⟨before, after, mover, grip', -, hgrips, hgrips', hhandling⟩ |
    ⟨n, -, hpool, hgrips', hquiet⟩
  · rw [hgrips] at hholdings
    rw [hgrips']
    exact hholdings.handle hhandling
  · rw [hgrips', hpool]
    exact hholdings.add_free n hquiet

end RemoteCall.Client
