/-
# What happens in a session

A step of a session does many things at once: it lets tasks move, carries out their effects, runs
hooks, and keeps its books.  `Change` lists what can happen to a session in one go, and a step is a
sequence of such changes (`Leads`).  As a change says what became of the client, whatever holds of
the client in every run holds of the client of a session (`Coherent.leads`), and what is to be kept
through a step of a session needs to be shown for one change only.

Users order things, and what a step orders depends on the step.  `may` says which orders are given;
everything else that happens is common to all steps.
-/
import Mathlib.Logic.Relation
import RemoteCall.Client.Session.Steps
import RemoteCall.Proofs.Client.Settling
import RemoteCall.Proofs.Client.Attribution

namespace RemoteCall.Client

/-! ## 1. Orders and turns -/

/-- The task that an order starts, for orders that only start one. -/
def Order.task? : Order → Option Task
  | execute id => some (.executing id .entry)
  | cancel id => some (.cancelling id .entry)
  | collect id => some (.collecting id .new)
  | stop id => some (.stopping id .entry)
  | _ => none

/-- The batch that an order extends or sets somebody to work on. -/
def Order.batch? : Order → Option Nat
  | addItem id _ | collect id | enqueue id | stop id => some id
  | _ => none

/-- Whoever orders a task for a batch orders something for the batch. -/
theorem Order.batch?_of_task? {order : Order} {task : Task} {id : Nat}
    (h : order.task? = some task) (huser : task.user = .batch id) : order.batch? = some id := by
  cases order with
  | execute | cancel => cases h; cases huser
  | collect | stop => cases h; cases huser; rfl
  | _ => cases h

/-- Whether an order makes a batch or extends one. -/
def Order.builds : Order → Bool
  | newBatch | addItem .. | cloneBatch _ | poll _ => true
  | _ => false

section

variable {machine machine' : Machine} {i : TaskId} {effects : List Effect} {id : Nat}

/-- Whatever starts on what there is can be ordered. -/
theorem Task.IsFresh.ordered {task : Task} (h : task.IsFresh machine) :
    ∃ order : Order, order.task? = some task := by
  cases h with
  | @executing id => exact ⟨.execute id, rfl⟩
  | @cancelling id => exact ⟨.cancel id, rfl⟩
  | @collecting id => exact ⟨.collect id, rfl⟩
  | @stopping id => exact ⟨.stop id, rfl⟩

/-- Who orders a task on what there is starts it. -/
theorem Machine.obey_of_task? {order : Order} {task : Task} (htask : order.task? = some task)
    (hfresh : task.IsFresh machine) : machine.obey order = some (machine.spawn task).2 := by
  cases order with
  | execute | cancel | collect | stop =>
    cases htask
    cases hfresh with
    | _ hknown => simp [obey, List.getElem?_eq_getElem hknown]
  | _ => cases htask

theorem Task.IsFresh.mono {task : Task} (h : task.IsFresh machine)
    (hcalls : machine.calls.length ≤ machine'.calls.length)
    (hbatches : machine.batches.length ≤ machine'.batches.length) : task.IsFresh machine' := by
  cases h with
  | executing hknown => exact .executing (Nat.lt_of_lt_of_le hknown hcalls)
  | cancelling hknown => exact .cancelling (Nat.lt_of_lt_of_le hknown hcalls)
  | collecting hknown => exact .collecting (Nat.lt_of_lt_of_le hknown hbatches)
  | stopping hknown => exact .stopping (Nat.lt_of_lt_of_le hknown hbatches)

/-- A turn of a task, with its effects. -/
inductive Machine.Turn (machine : Machine) (i : TaskId) : Machine × List Effect → Prop
  | advanced {step : Machine × List Effect} (taken : machine.advance i = some step) :
    Turn machine i step
  | expired {step : Machine × List Effect} (taken : machine.expire i = some step) :
    Turn machine i step
  | answered {operation : Operation} {answer : Answer} {step : Machine × List Effect}
    (asked : machine.operation? i = some operation) (taken : machine.answer i answer = some step) :
    Turn machine i step

/-- A turn is a step of the task, and its effects are among the events. -/
theorem Machine.Turn.step (h : machine.Turn i (machine', effects)) :
    ∃ mover events, machine.tasks[i]? = some mover ∧ Step machine (some mover) machine' events ∧
      ∀ effect ∈ effects, .effect effect ∈ events := by
  cases htask : machine.tasks[i]? with
  | none =>
    cases h with
    | advanced htaken => simp [advance, htask] at htaken
    | expired htaken => simp [expire, htask] at htaken
    | answered hasked htaken => simp [answer, htask] at htaken
  | some mover =>
    cases h with
    | advanced htaken =>
      exact ⟨mover, _, rfl, htask ▸ advance_ok htaken,
        fun _ h => List.mem_append_right _ (List.mem_map_of_mem h)⟩
    | expired htaken => exact ⟨mover, _, rfl, htask ▸ expire_ok htaken, by simp⟩
    | answered hasked htaken => exact ⟨mover, _, rfl, htask ▸ answer_ok hasked htaken, by simp⟩

/-- A turn can be taken in every world with the client. -/
theorem Machine.Turn.taken (h : machine.Turn i (machine', effects)) :
    ∃ label events, ∀ log, (World.mk machine log).step label = some ⟨machine', log ++ events⟩ := by
  cases h with
  | advanced htaken => exact ⟨.advance i, _, fun log => by simp only [World.step, htaken]; rfl⟩
  | expired htaken => exact ⟨.expire i, _, fun log => by simp only [World.step, htaken]; rfl⟩
  | @answered operation answer _ hasked htaken =>
    exact ⟨.answer i answer, _, fun log => by simp only [World.step, hasked, htaken]; rfl⟩

/-- A task stays at its place, or it is the one that is replaced. -/
theorem getElem?_around {before after added : List Task} {old new task : Task}
    (h : (before ++ old :: after)[i]? = some task) :
    (before ++ new :: after ++ added)[i]? = some task ∨
      task = old ∧ (before ++ new :: after ++ added)[i]? = some new := by
  have hset : (before ++ old :: after).set before.length new = before ++ new :: after := by simp
  have hi := (List.getElem?_eq_some_iff.mp h).1
  rw [List.getElem?_append_left (by simpa using hi), ← hset]
  by_cases hplace : before.length = i
  · subst hplace
    rw [List.getElem?_set_self hi]
    exact .inr ⟨by simpa using h.symm, rfl⟩
  · rw [List.getElem?_set_ne hplace]
    exact .inl h

/-- **A collector stays where it is, or it makes a move of its own.** -/
theorem Step.collector_cases {mover : Task} {events : Log} {collector : Collector}
    (h : Step machine (some mover) machine' events)
    (htask : machine.tasks[i]? = some (.collecting id collector)) :
    machine'.tasks[i]? = some (.collecting id collector) ∨
      ∃ batch batch' collector' hired, machine.batches[id]? = some batch ∧
        machine'.batches[id]? = some batch' ∧
        CollectorMove id machine.workerLimit (machine.crew id) batch collector batch' collector'
          hired events ∧ machine'.tasks[i]? = some (.collecting id collector') := by
  have hstays : ∀ {before after added : List Task} {old new : Task},
      machine.tasks = before ++ old :: after → old ≠ .collecting id collector →
      (before ++ new :: after ++ added)[i]? = some (.collecting id collector) := by
    intro before after added old new htasks hother
    rw [htasks] at htask
    exact (getElem?_around htask).resolve_right fun hself => hother hself.1.symm
  cases h with
  | executing htasks | cancelling htasks | working htasks | stopping htasks =>
    refine .inl ?_
    rw [← List.append_nil (_ ++ _)]
    exact hstays htasks (by simp)
  | collecting htasks hfound hmove =>
    rw [htasks] at htask
    rcases getElem?_around htask with hsame | ⟨hself, hnew⟩
    · exact .inl hsame
    · cases hself
      exact .inr ⟨_, _, _, _, hfound,
        List.getElem?_set_self (List.getElem?_eq_some_iff.mp hfound).1, hmove, hnew⟩

/-- A batch delivers only while it is collected. -/
theorem Machine.Turn.delivering {delivery : Delivery} (h : machine.Turn i (machine', effects))
    (hmem : .delivered id delivery ∈ effects) :
    ∃ collector, .collecting id collector ∈ machine'.tasks ∧ collector.isOver = false := by
  obtain ⟨mover, events, -, hstep, hevents⟩ := h.step
  have hmember : .delivery delivery ∈ Log.callbacks events id :=
    List.mem_filterMap.mpr ⟨_, hevents _ hmem, by simp⟩
  have htold := List.ne_nil_of_mem hmember
  cases hstep with
  | executing htasks hfound hmove => exact absurd hmove.callbacks_eq htold
  | cancelling htasks hfound hmove => exact absurd (by cases hmove <;> rfl) htold
  | working htasks hfound hmove => exact absurd hmove.callbacks_eq htold
  | stopping htasks hfound hmove => exact absurd hmove.callbacks_eq htold
  | @collecting before after other _ _ _ _ _ _ htasks hfound hmove =>
    obtain rfl : other = id := by
      by_contra hother
      exact htold (hmove.callbacks_eq hother)
    refine ⟨_, List.mem_append_left _ (List.mem_append_right _ (List.mem_cons_self ..)), ?_⟩
    have hevent := hevents _ hmem
    cases hmove with
    | @delivered delivery => cases delivery <;> rfl
    | _ => simp at hevent

end

namespace Session

/-! ## 2. Changes -/

/-- What can happen to a session in one go, when the orders are such as `may` says. -/
inductive Change (may : Order → Prop) (session : Session) : Session → Prop
  | obeyed {order : Order} {machine' : Machine} (allowed : may order)
    (done : session.machine.obey order = some machine') :
    Change may session { session with machine := machine' }
  | moved {i : TaskId} {machine' : Machine} {effects : List Effect}
    (turn : session.machine.Turn i (machine', effects)) :
    Change may session { session with machine := machine' }
  /-- A hook starts its task. -/
  | hooked {hook : Hook} (armed : hook ∈ session.hooks) :
    Change may session { session with machine := (session.machine.spawn hook.task).2 }
  /-- The user of a batch cancels it inside a delivery. -/
  | stopped {id : Nat} {collector : Collector}
    (collecting : .collecting id collector ∈ session.machine.tasks)
    (going : collector.isOver = false) :
    Change may session { session with machine := (session.machine.spawn (.stopping id .entry)).2 }
  /-- A task begins to wait for another one. -/
  | paused {waiter other : TaskId} (known : waiter < session.machine.tasks.length) :
    Change may session { session with paused := (waiter, other) :: session.paused }
  /-- The books are kept: the client stays as it is, names are given to what there is, and hooks are
  armed with what may be ordered. -/
  | kept {session' : Session} (machine_eq : session'.machine = session.machine)
    (paused_eq : session'.paused = session.paused)
    (calls : ∀ entry ∈ session'.calls,
      entry ∈ session.calls ∨ entry.2 < session.machine.calls.length)
    (batches : ∀ entry ∈ session'.batches,
      entry ∈ session.batches ∨ entry.2 < session.machine.batches.length)
    (hooks : ∀ hook ∈ session'.hooks, hook ∈ session.hooks ∨
      hook.task.IsFresh session.machine ∧
        ∃ order : Order, may order ∧ order.task? = some hook.task) :
    Change may session session'

/-- Changes one after the other. -/
def Leads (may : Order → Prop) : Session → Session → Prop := Relation.ReflTransGen (Change may)

/-- The names and hooks of a session refer to what there is, and its client has come to where it is
in a run. -/
structure Coherent (config : Config) (session : Session) : Prop where
  reachable : ∃ log, World.Reachable config ⟨session.machine, log⟩
  calls : ∀ entry ∈ session.calls, entry.2 < session.machine.calls.length
  batches : ∀ entry ∈ session.batches, entry.2 < session.machine.batches.length
  hooks : ∀ hook ∈ session.hooks, hook.task.IsFresh session.machine
  paused : ∀ entry ∈ session.paused, entry.1 < session.machine.tasks.length

section

variable {may : Order → Prop} {config : Config} {session session' session'' : Session}

theorem Leads.refl : Leads may session session := Relation.ReflTransGen.refl

theorem Leads.tail (h : Leads may session session') (hchange : Change may session' session'') :
    Leads may session session'' := Relation.ReflTransGen.tail h hchange

theorem Leads.trans (h : Leads may session session') (h' : Leads may session' session'') :
    Leads may session session'' := Relation.ReflTransGen.trans h h'

/-- What is neither the client nor names nor hooks can be changed at any time. -/
theorem Leads.books (h : Leads may session session')
    (hmachine : session''.machine = session'.machine) (hcalls : session''.calls = session'.calls)
    (hbatches : session''.batches = session'.batches)
    (hpaused : session''.paused = session'.paused)
    (hhooks : ∀ hook ∈ session''.hooks, hook ∈ session'.hooks) : Leads may session session'' :=
  h.tail (.kept hmachine hpaused (fun _ hentry => .inl (hcalls ▸ hentry))
    (fun _ hentry => .inl (hbatches ▸ hentry)) fun _ hhook => .inl (hhooks _ hhook))

/-- The client of a session stays one that a run comes to. -/
theorem Change.reachable (hcoherent : session.Coherent config) (h : Change may session session') :
    ∃ log, World.Reachable config ⟨session'.machine, log⟩ := by
  obtain ⟨log, hreachable⟩ := hcoherent.reachable
  have hobeyed : ∀ {order machine'}, session.machine.obey order = some machine' →
      World.Reachable config ⟨machine', log⟩ := by
    intro order machine' hdone
    have htaken : (World.mk session.machine log).step (.order order) = some ⟨machine', log⟩ := by
      simp only [World.step, hdone, Option.map_some]
    exact hreachable.step htaken
  have hspawned : ∀ {task : Task}, task.IsFresh session.machine →
      World.Reachable config ⟨(session.machine.spawn task).2, log⟩ := by
    intro task hfresh
    obtain ⟨order, htask⟩ := hfresh.ordered
    exact hobeyed (Machine.obey_of_task? htask hfresh)
  cases h with
  | obeyed hallowed hdone => exact ⟨log, hobeyed hdone⟩
  | moved hturn =>
    obtain ⟨label, events, htaken⟩ := hturn.taken
    exact ⟨_, hreachable.step (htaken log)⟩
  | hooked harmed => exact ⟨log, hspawned (hcoherent.hooks _ harmed)⟩
  | stopped hcollecting =>
    have htidy := (hreachable.holds Team.Balanced.lasting).tidy
    exact ⟨log, hspawned (.stopping (htidy _ hcollecting).1)⟩
  | paused => exact ⟨log, hreachable⟩
  | kept hmachine => exact ⟨log, hmachine ▸ hreachable⟩

/-- No step takes anything away. -/
theorem length_le_of_step {machine machine' : Machine} {mover? : Option Task} {events : Log}
    (h : Step machine mover? machine' events) :
    machine.calls.length ≤ machine'.calls.length ∧
      machine.batches.length ≤ machine'.batches.length ∧
        machine.tasks.length ≤ machine'.tasks.length := by
  refine ⟨by cases h <;> simp, h.batches_length_le, ?_⟩
  cases h with
  | executing htasks | cancelling htasks | working htasks | stopping htasks => simp [htasks]
  | collecting htasks => simp [htasks]
  | _ => simp

/-- What there is stays. -/
theorem Change.length_le (h : Change may session session') :
    session.machine.calls.length ≤ session'.machine.calls.length ∧
      session.machine.batches.length ≤ session'.machine.batches.length ∧
        session.machine.tasks.length ≤ session'.machine.tasks.length := by
  cases h with
  | obeyed hallowed hdone => exact length_le_of_step (Machine.obey_ok hdone)
  | moved hturn =>
    obtain ⟨_, _, -, htaken, -⟩ := hturn.step
    exact length_le_of_step htaken
  | hooked | stopped => exact ⟨Nat.le_refl _, Nat.le_refl _, by simp [Machine.spawn]⟩
  | paused => exact ⟨Nat.le_refl _, Nat.le_refl _, Nat.le_refl _⟩
  | kept hmachine => rw [hmachine]; exact ⟨Nat.le_refl _, Nat.le_refl _, Nat.le_refl _⟩

theorem Leads.batches_le (h : Leads may session session') :
    session.machine.batches.length ≤ session'.machine.batches.length := by
  induction h with
  | refl => exact Nat.le_refl _
  | tail hbefore hchange ih => exact Nat.le_trans ih hchange.length_le.2.1

/-- A change gives names only to what there is. -/
theorem Change.coherent (hcoherent : session.Coherent config) (h : Change may session session') :
    session'.Coherent config := by
  obtain ⟨hcalls, hbatches, htasks⟩ := h.length_le
  have hreachable := h.reachable hcoherent
  have hpaused : ∀ entry ∈ session.paused, entry.1 < session'.machine.tasks.length :=
    fun entry hentry => Nat.lt_of_lt_of_le (hcoherent.paused entry hentry) htasks
  have hold : session'.calls = session.calls → session'.batches = session.batches →
      session'.hooks = session.hooks →
      (∀ entry ∈ session'.paused, entry.1 < session'.machine.tasks.length) →
      session'.Coherent config := fun h₁ h₂ h₃ h₄ =>
    ⟨hreachable,
      fun entry hentry => Nat.lt_of_lt_of_le (hcoherent.calls entry (h₁ ▸ hentry)) hcalls,
      fun entry hentry => Nat.lt_of_lt_of_le (hcoherent.batches entry (h₂ ▸ hentry)) hbatches,
      fun hook hhook => (hcoherent.hooks hook (h₃ ▸ hhook)).mono hcalls hbatches, h₄⟩
  cases h with
  | kept hmachine hsame hknown hknown' harmed =>
    refine ⟨hreachable, fun entry hentry => ?_, fun entry hentry => ?_, fun hook hhook => ?_,
      hsame ▸ hpaused⟩
    · exact Nat.lt_of_lt_of_le ((hknown entry hentry).elim (hcoherent.calls entry) id) hcalls
    · exact Nat.lt_of_lt_of_le ((hknown' entry hentry).elim (hcoherent.batches entry) id) hbatches
    · exact ((harmed hook hhook).elim (hcoherent.hooks hook) And.left).mono hcalls hbatches
  | paused hwaiter =>
    refine hold rfl rfl rfl ?_
    rintro entry (_ | ⟨_, hentry⟩)
    · exact hwaiter
    · exact hpaused entry hentry
  | _ => exact hold rfl rfl rfl hpaused

/-- **A session stays coherent**, and its client one that a run comes to. -/
theorem Coherent.leads (hcoherent : session.Coherent config) (h : Leads may session session') :
    session'.Coherent config := by
  induction h with
  | refl => exact hcoherent
  | tail hbefore hchange ih => exact hchange.coherent ih

end

/-! ## 3. Tasks move -/

section

variable {may : Order → Prop} {session session' : Session} {i : TaskId}

theorem leads_spawnFor {task : Task} {waiter : TaskId}
    (hwaiter : waiter < session.machine.tasks.length)
    (h : Change may session { session with machine := (session.machine.spawn task).2 }) :
    Leads may session (session.spawnFor waiter task).2 :=
  (Leads.refl.tail h).tail (.paused (Nat.lt_of_lt_of_le hwaiter h.length_le.2.2))

/-- A delivery of a batch that is collected. -/
theorem leads_deliver {id : Nat} {collector : Collector} (delivery : Delivery)
    (hwaiter : i < session.machine.tasks.length)
    (hcollecting : .collecting id collector ∈ session.machine.tasks)
    (hgoing : collector.isOver = false) :
    Leads may session (session.deliver i id delivery) ∧
      session.machine.tasks <+: (session.deliver i id delivery).machine.tasks := by
  cases haudience : session.audiences.find? (·.task == i) with
  | none =>
    simp only [deliver, haudience]
    exact ⟨.refl, List.prefix_rfl⟩
  | some audience =>
    simp only [deliver, haudience]
    have hheard : ∀ audiences, Leads may session { session with audiences := audiences } :=
      fun audiences => Leads.refl.books rfl rfl rfl rfl fun _ hhook => hhook
    split_ifs
    · exact ⟨(hheard _).trans (leads_spawnFor hwaiter (.stopped hcollecting hgoing)),
        List.prefix_append _ _⟩
    · exact ⟨hheard _, List.prefix_rfl⟩
    · exact ⟨.refl, List.prefix_rfl⟩

/-- Effects change the client only by what the user does inside a delivery. -/
theorem leads_carryOut (effects : List Effect) (session : Session)
    (hwaiter : i < session.machine.tasks.length)
    (hdelivering : ∀ id delivery, .delivered id delivery ∈ effects →
      ∃ collector, .collecting id collector ∈ session.machine.tasks ∧ collector.isOver = false) :
    Leads may session (effects.foldl (carryOut i) session) := by
  induction effects generalizing session with
  | nil => exact .refl
  | cons effect effects ih =>
    rw [List.foldl_cons]
    suffices hhead : Leads may session (carryOut i session effect) ∧
        session.machine.tasks <+: (carryOut i session effect).machine.tasks by
      refine hhead.1.trans (ih _ (Nat.lt_of_lt_of_le hwaiter hhead.2.length_le) ?_)
      intro id delivery hmem
      obtain ⟨collector, hcollecting, hgoing⟩ := hdelivering id delivery (.tail _ hmem)
      exact ⟨collector, hhead.2.mem hcollecting, hgoing⟩
    cases effect with
    | delivered id delivery =>
      obtain ⟨collector, hcollecting, hgoing⟩ := hdelivering id delivery (.head _)
      exact leads_deliver delivery hwaiter hcollecting hgoing
    | _ => exact ⟨Leads.refl.books rfl rfl rfl rfl fun _ hhook => hhook, List.prefix_rfl⟩

/-- **A turn of a task with its effects.** -/
theorem leads_after {step : Machine × List Effect} (hturn : session.machine.Turn i step) :
    Leads may session (session.after i step) := by
  obtain ⟨mover, _, hmover, htaken, -⟩ := hturn.step
  have hwaiter : i < step.1.tasks.length :=
    Nat.lt_of_lt_of_le (List.getElem?_eq_some_iff.mp hmover).1 (length_le_of_step htaken).2.2
  exact (Leads.refl.tail (.moved hturn)).trans
    (leads_carryOut step.2 _ hwaiter fun _ _ hmem => hturn.delivering hmem)

theorem leads_reply {operation : Operation} {answer : Answer}
    (hasked : session.machine.operation? i = some operation)
    (h : session.reply i answer = some session') : Leads may session session' := by
  obtain ⟨step, htaken, rfl⟩ := Option.map_eq_some_iff.mp h
  exact (leads_after (.answered hasked htaken)).books rfl rfl rfl rfl fun _ hhook => hhook

/-- An operation that is counted starts a hook at most. -/
theorem leads_enter {operation : Operation}
    (hasked : session.machine.operation? i = some operation)
    (h : session.enter i operation = some session') : Leads may session session' := by
  cases hcounted : session.loopback.enter operation with
  | error answer =>
    simp only [enter, hcounted] at h
    exact leads_reply hasked h
  | ok counted =>
    simp only [enter, hcounted, List.partition_eq_filter_filter] at h
    cases harmed : session.hooks.filter fun hook =>
        hook.event = operation.event ∧ hook.number = counted.1 with
    | nil =>
      rw [harmed] at h
      cases h
      exact Leads.refl.books rfl rfl rfl rfl fun _ hhook => hhook
    | cons hook others =>
      rw [harmed] at h
      have hmem : ∀ other ∈ hook :: others, other ∈ session.hooks := fun other hother =>
        List.mem_of_mem_filter (harmed ▸ hother)
      have hrest : ∀ other ∈ others ++ session.hooks.filter (not ∘ fun hook =>
          hook.event = operation.event ∧ hook.number = counted.1), other ∈ session.hooks := by
        intro other hother
        rcases List.mem_append.mp hother with hother | hother
        · exact hmem other (.tail _ hother)
        · exact List.mem_of_mem_filter hother
      have hwaiter : i < session.machine.tasks.length := by
        by_contra hbeyond
        simp [Machine.operation?, List.getElem?_eq_none (Nat.le_of_not_lt hbeyond)] at hasked
      have hstarted : Leads may session _ := leads_spawnFor hwaiter (.hooked (hmem hook (.head _)))
      cases h
      cases htask : hook.task <;> rw [htask] at hstarted <;>
        exact hstarted.books rfl rfl rfl rfl hrest

/-- Going on with an operation answers it at most. -/
theorem leads_proceed {operation : Operation} {visit : Visit}
    (hasked : session.machine.operation? visit.task = some operation)
    (h : session.proceed operation visit = some session') : Leads may session session' := by
  unfold proceed at h
  split at h
  · cases h
    exact Leads.refl.books rfl rfl rfl rfl fun _ hhook => hhook
  · split at h
    · cases h
    · rename_i answer loopback hperformed
      have hkept : Leads may session { session with loopback := loopback } :=
        Leads.refl.books rfl rfl rfl rfl fun _ hhook => hhook
      exact hkept.trans (leads_reply hasked h)

theorem leads_operate {operation : Operation}
    (hasked : session.machine.operation? i = some operation)
    (h : session.operate i operation = some session') : Leads may session session' := by
  unfold operate at h
  split at h
  · exact leads_reply hasked h
  · split at h
    · rename_i visit hvisit
      obtain rfl : visit.task = i := by simpa using List.find?_some hvisit
      exact leads_proceed hasked h
    · exact leads_enter hasked h

/-- **A task that moves.** -/
theorem leads_move (h : session.move i = some session') : Leads may session session' := by
  unfold move at h
  split_ifs at h
  split at h
  · rename_i step htaken
    cases h
    exact leads_after (.advanced htaken)
  · obtain ⟨operation, hasked, hoperate⟩ := Option.bind_eq_some_iff.mp h
    exact leads_operate hasked hoperate

theorem leads_moveFirst (h : session.moveFirst = some session') : Leads may session session' := by
  obtain ⟨i, -, hmove⟩ := List.exists_of_findSome?_eq_some h
  exact leads_move hmove

theorem leads_expireFirst (h : session.expireFirst = some session') :
    Leads may session session' := by
  obtain ⟨i, -, hexpire⟩ := List.exists_of_findSome?_eq_some h
  split_ifs at hexpire
  obtain ⟨step, htaken, rfl⟩ := Option.map_eq_some_iff.mp hexpire
  exact leads_after (.expired htaken)

theorem leads_quiesceWithin (fuel : Nat) (session : Session) :
    Leads may session (quiesceWithin fuel session) := by
  induction fuel generalizing session with
  | zero => exact .refl
  | succ fuel ih =>
    unfold quiesceWithin
    cases hmoved : session.moveFirst with
    | some next => exact (leads_moveFirst hmoved).trans (ih next)
    | none => exact .refl

/-- **While the user waits only tasks move.** -/
theorem leads_awaitWithin (fuel : Nat) (session : Session) :
    Leads may session (awaitWithin i fuel session) := by
  induction fuel generalizing session with
  | zero => exact .refl
  | succ fuel ih =>
    unfold awaitWithin
    split_ifs
    · exact .refl
    · cases hmoved : session.moveFirst with
      | some next => exact (leads_moveFirst hmoved).trans (ih next)
      | none =>
        cases hexpired : session.expireFirst with
        | some next => exact (leads_expireFirst hexpired).trans (ih next)
        | none => exact .refl

end

/-! ## 4. What stays as it is -/

end Session

section

variable {machine machine' : Machine} {mover : Task} {order : Order} {events : Log} {id : Nat}

/-- Replacing a batch by one with the same items changes no items. -/
theorem items_set {batches : List Batch} {batch batch' : Batch} (hfound : batches[id]? = some batch)
    (hitems : batch'.items = batch.items) :
    (batches.set id batch').map (·.items) = batches.map (·.items) := by
  obtain ⟨hlt, rfl⟩ := List.getElem?_eq_some_iff.mp hfound
  have hlt' : id < (batches.map (·.items)).length := by simpa using hlt
  have hself : batches[id].items = (batches.map (·.items))[id] := by simp
  rw [List.map_set, hitems, hself, List.set_getElem_self]

/-- **No task adds items** to a batch, or makes one. -/
theorem Step.items_eq (h : Step machine (some mover) machine' events) :
    machine'.batches.map (·.items) = machine.batches.map (·.items) := by
  cases h with
  | executing | cancelling => rfl
  | collecting htasks hfound hmove => exact items_set hfound (by cases hmove <;> rfl)
  | working htasks hfound hmove => exact items_set hfound hmove.batch_frame.1
  | stopping htasks hfound hmove => exact items_set hfound hmove.batch_frame.1

/-- Orders that do not build leave the items of all batches alone. -/
theorem Machine.obey_items (hbuilds : order.builds = false)
    (h : machine.obey order = some machine') :
    machine'.batches.map (·.items) = machine.batches.map (·.items) := by
  cases order with
  | newCall => cases h; rfl
  | cloneCall | execute | cancel | collect | stop =>
    obtain ⟨_, -, rfl⟩ := Option.map_eq_some_iff.mp h
    rfl
  | enqueue id =>
    simp only [obey, enqueue] at h
    cases hfound : machine.batches[id]? with
    | none => simp [hfound] at h
    | some batch =>
      simp only [hfound] at h
      split_ifs at h
      cases h
      exact items_set hfound rfl
  | newBatch | addItem | cloneBatch | poll => cases hbuilds

/-- **A task of somebody else leaves a batch alone**, and nobody new works on it. -/
theorem Step.leaves (h : Step machine (some mover) machine' events)
    (hother : mover.user ≠ .batch id) :
    machine'.batches[id]? = machine.batches[id]? ∧
      ∀ task ∈ machine'.tasks, task.user = .batch id → task ∈ machine.tasks := by
  have hkept : ∀ {before after : List Task} {old new : Task}, old.user ≠ .batch id →
      new.user = old.user → machine.tasks = before ++ old :: after →
      ∀ task ∈ before ++ new :: after, task.user = .batch id → task ∈ machine.tasks := by
    rintro before after old new hold hnew htasks task htask huser
    rw [htasks]
    rcases List.mem_append.mp htask with hmem | hmem
    · exact List.mem_append_left _ hmem
    · rcases List.mem_cons.mp hmem with rfl | hmem
      · exact absurd (hnew ▸ huser) hold
      · exact List.mem_append_right _ (.tail _ hmem)
  have hapart : ∀ {other : Nat}, User.batch other ≠ .batch id → other ≠ id :=
    fun h heq => h (heq ▸ rfl)
  cases h with
  | executing htasks | cancelling htasks => exact ⟨rfl, hkept hother rfl htasks⟩
  | @collecting _ _ other hired collector collector' _ _ _ htasks =>
    refine ⟨List.getElem?_set_ne (hapart hother), fun task htask huser => ?_⟩
    rcases List.mem_append.mp htask with hmem | hmem
    · have hsame : (Task.collecting other collector').user =
        (Task.collecting other collector).user := rfl
      exact hkept hother hsame htasks task hmem huser
    · rw [List.eq_of_mem_replicate hmem] at huser
      exact absurd huser hother
  | working htasks | stopping htasks =>
    exact ⟨List.getElem?_set_ne (hapart hother), hkept hother rfl htasks⟩

/-- **An order for something else leaves a batch alone**, and sets nobody to work on it. -/
theorem Machine.obey_leaves (hid : id < machine.batches.length) (hother : order.batch? ≠ some id)
    (h : machine.obey order = some machine') :
    machine'.batches[id]? = machine.batches[id]? ∧
      ∀ task ∈ machine'.tasks, task.user = .batch id → task ∈ machine.tasks := by
  have hspawned : ∀ {task : Task}, task.user ≠ .batch id →
      ∀ other ∈ machine.tasks ++ [task], other.user = .batch id → other ∈ machine.tasks := by
    intro task htask other hother huser
    rcases List.mem_append.mp hother with hmem | hmem
    · exact hmem
    · exact absurd (List.mem_singleton.mp hmem ▸ huser) htask
  have happended : ∀ batch, (machine.batches ++ [batch])[id]? = machine.batches[id]? :=
    fun batch => List.getElem?_append_left hid
  have hapart : ∀ {other : Nat}, some other ≠ some id → User.batch other ≠ .batch id :=
    fun h heq => h (by cases heq; rfl)
  cases order with
  | newCall => cases h; exact ⟨rfl, fun _ h _ => h⟩
  | newBatch => cases h; exact ⟨happended _, fun _ h _ => h⟩
  | cloneCall =>
    obtain ⟨_, -, rfl⟩ := Option.map_eq_some_iff.mp h
    exact ⟨rfl, fun _ h _ => h⟩
  | cloneBatch =>
    obtain ⟨_, -, rfl⟩ := Option.map_eq_some_iff.mp h
    exact ⟨happended _, fun _ h _ => h⟩
  | execute | cancel =>
    obtain ⟨_, -, rfl⟩ := Option.map_eq_some_iff.mp h
    exact ⟨rfl, hspawned (by simp [Task.user])⟩
  | collect | stop =>
    obtain ⟨_, -, rfl⟩ := Option.map_eq_some_iff.mp h
    exact ⟨rfl, hspawned (hapart hother)⟩
  | addItem other item =>
    obtain ⟨batch, -, h⟩ := Option.bind_eq_some_iff.mp h
    cases hfault : batch.addFault? item.key with
    | some fault => simp [hfault] at h
    | none =>
      simp only [hfault] at h
      cases h
      exact ⟨List.getElem?_set_ne fun heq => hother (congrArg some heq), fun _ h _ => h⟩
  | enqueue other =>
    simp only [obey, enqueue] at h
    cases hfound : machine.batches[other]? with
    | none => simp [hfound] at h
    | some batch =>
      simp only [hfound] at h
      split_ifs at h
      cases h
      exact ⟨List.getElem?_set_ne fun heq => hother (congrArg some heq),
        hspawned (hapart hother)⟩
  | poll other =>
    obtain ⟨batch, hfound, rfl⟩ := Option.map_eq_some_iff.mp h
    have hnew : User.batch machine.batches.length ≠ .batch id :=
      hapart fun heq => absurd (Option.some.inj heq) (by omega)
    simp only [BatchFuture.poll, BatchFuture.ofBatch, hfound]
    exact ⟨happended _, hspawned hnew⟩

end

namespace Session

/-- Nobody works on a batch or is going to. -/
structure Idle (id : Nat) (session : Session) : Prop where
  known : id < session.machine.batches.length
  ended : ∀ task ∈ session.machine.tasks, task.user = .batch id → task.isOver = true
  unhooked : ∀ hook ∈ session.hooks, hook.task.user ≠ .batch id

section

variable {may : Order → Prop} {session session' : Session} {id : Nat}

theorem Change.items_eq (hmay : ∀ order, may order → order.builds = false)
    (h : Change may session session') :
    session'.machine.batches.map (·.items) = session.machine.batches.map (·.items) := by
  cases h with
  | obeyed hallowed hdone => exact Machine.obey_items (hmay _ hallowed) hdone
  | moved hturn =>
    obtain ⟨_, _, -, hstep, -⟩ := hturn.step
    exact hstep.items_eq
  | hooked | stopped | paused => rfl
  | kept hmachine => rw [hmachine]

/-- **Batches keep their items** where nothing is built. -/
theorem Leads.items_eq (hmay : ∀ order, may order → order.builds = false)
    (h : Leads may session session') :
    session'.machine.batches.map (·.items) = session.machine.batches.map (·.items) := by
  induction h with
  | refl => rfl
  | tail hbefore hchange ih => exact (hchange.items_eq hmay).trans ih

/-- A batch stays idle where nothing is ordered for it. -/
theorem Change.idle (hmay : ∀ order, may order → order.batch? ≠ some id) (hidle : session.Idle id)
    (h : Change may session session') :
    session'.Idle id ∧ session'.machine.batches[id]? = session.machine.batches[id]? := by
  have hknown := Nat.lt_of_lt_of_le hidle.known h.length_le.2.1
  have hspawned : ∀ {task : Task}, task.user ≠ .batch id →
      ∀ other ∈ session.machine.tasks ++ [task], other.user = .batch id → other.isOver = true := by
    intro task htask other hother huser
    rcases List.mem_append.mp hother with hmem | hmem
    · exact hidle.ended other hmem huser
    · exact absurd (List.mem_singleton.mp hmem ▸ huser) htask
  cases h with
  | obeyed hallowed hdone =>
    obtain ⟨hsame, htasks⟩ := Machine.obey_leaves hidle.known (hmay _ hallowed) hdone
    exact ⟨⟨hknown, fun task htask huser => hidle.ended task (htasks task htask huser) huser,
      hidle.unhooked⟩, hsame⟩
  | moved hturn =>
    obtain ⟨mover, _, hmover, hstep, -⟩ := hturn.step
    -- who has moved was not over
    have hother : mover.user ≠ .batch id := fun huser => by
      have hover := hidle.ended mover (List.mem_of_getElem? hmover) huser
      exact absurd (hover.symm.trans hstep.not_over) (by simp)
    obtain ⟨hsame, htasks⟩ := hstep.leaves hother
    exact ⟨⟨hknown, fun task htask huser => hidle.ended task (htasks task htask huser) huser,
      hidle.unhooked⟩, hsame⟩
  | hooked harmed => exact ⟨⟨hknown, hspawned (hidle.unhooked _ harmed), hidle.unhooked⟩, rfl⟩
  | @stopped other collector hcollecting hgoing =>
    have hother : User.batch other ≠ .batch id := fun huser => by
      have hover := hidle.ended _ hcollecting huser
      exact absurd (hover.symm.trans hgoing) (by simp)
    exact ⟨⟨hknown, hspawned hother, hidle.unhooked⟩, rfl⟩
  | paused => exact ⟨⟨hknown, hidle.ended, hidle.unhooked⟩, rfl⟩
  | kept hmachine _ _ _ harmed =>
    refine ⟨⟨hknown, by rw [hmachine]; exact hidle.ended, fun hook hhook => ?_⟩, by rw [hmachine]⟩
    rcases harmed hook hhook with hold | ⟨-, order, hallowed, htask⟩
    · exact hidle.unhooked hook hold
    · exact fun huser => hmay order hallowed (Order.batch?_of_task? htask huser)

/-- **An idle batch stays as it is** where nothing is ordered for it. -/
theorem Leads.idle (hmay : ∀ order, may order → order.batch? ≠ some id) (hidle : session.Idle id)
    (h : Leads may session session') :
    session'.Idle id ∧ session'.machine.batches[id]? = session.machine.batches[id]? := by
  induction h with
  | refl => exact ⟨hidle, rfl⟩
  | tail hbefore hchange ih =>
    obtain ⟨hidle', hsame⟩ := hchange.idle hmay ih.1
    exact ⟨hidle', hsame.trans ih.2⟩

end

end Session

end RemoteCall.Client
