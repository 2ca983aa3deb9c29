/-
# Cancelling a call

A call that is cancelled or completed stays so, and whoever moves it takes it from `pending`
(`Run.phase_stays`, `Run.CancelWins`).  Only the cancellation that has won fires the abort handle,
and it does so once at most (`Run.abortsOf_length_le`).

A connection that is registered for a call, or that was aborted through its handle, is one that an
execution of the call has or that is closed (`World.Retains`): an execution that gives its
connection back has looked at the phase before, and the registration was withdrawn by then.
-/
import RemoteCall.Proofs.Client.Attribution
import RemoteCall.Proofs.Client.Life.Steps

namespace RemoteCall.Client

/-! ## 1. The phase of a call -/

section

variable {machine machine' : Machine} {mover? : Option Task} {pool pool' : Pool} {call call' : Call}
  {log events : Log} {id : Nat} {conn : ConnId}

/-- An execution completes its call or leaves the phase as it is. -/
theorem CallMove.phase_cases {stage stage' : CallStage}
    (h : CallMove id pool call stage pool' call' stage' events) :
    call'.phase = call.phase ∨ call.phase = .pending ∧ call'.phase = .completed := by
  have hcompleted : call.isCancelled = false →
      Phase.completed = call.phase ∨ call.phase = .pending ∧ Phase.completed = .completed := by
    intro huncancelled
    cases hphase : call.phase with
    | pending => exact .inr ⟨rfl, rfl⟩
    | completed => exact .inl rfl
    | cancelled => simp [Call.isCancelled, hphase] at huncancelled
  cases h with
  | succeeded huncancelled | failed huncancelled | decoded huncancelled | reported huncancelled =>
    exact hcompleted huncancelled
  | _ => exact .inl rfl

/-- A cancellation cancels the call when it enters, or leaves the phase as it is. -/
theorem CancelMove.phase_cases {stage stage' : CancelStage}
    (h : CancelMove call stage call' stage' events) :
    call'.phase = call.phase ∨
      stage = .entry ∧ call.phase = .pending ∧ call'.phase = .cancelled := by
  cases h with
  | won hpending => exact .inr ⟨rfl, hpending, rfl⟩
  | _ => exact .inl rfl

/-- **A call leaves its phase only when it is pending**, completed by one of its executions or
cancelled by one of its cancellations. -/
theorem Step.phase_cases (h : Step machine mover? machine' events)
    (hcall : machine.calls[id]? = some call) :
    ∃ call', machine'.calls[id]? = some call' ∧ (call'.phase = call.phase ∨
      call.phase = .pending ∧
        (call'.phase = .completed ∧ (∃ stage, mover? = some (.executing id stage)) ∨
          call'.phase = .cancelled ∧ mover? = some (.cancelling id .entry))) := by
  rcases h.call_cases hcall with ⟨-, hsame⟩ | ⟨stage, _, _, call', hmover, hmove, hcall'⟩ |
    ⟨stage, _, call', hmover, hmove, hcall'⟩
  · exact ⟨call, hsame, .inl rfl⟩
  · refine ⟨call', hcall', hmove.phase_cases.imp_right fun ⟨hpending, hcompleted⟩ => ?_⟩
    exact ⟨hpending, .inl ⟨hcompleted, stage, hmover⟩⟩
  · refine ⟨call', hcall', hmove.phase_cases.imp_right fun ⟨hentry, hpending, hcancelled⟩ => ?_⟩
    exact ⟨hpending, .inr ⟨hcancelled, hentry ▸ hmover⟩⟩

end

namespace Run

variable {config : Config} {run : Run config} {id n m : Nat} {phase : Phase}

/-- The phase of a call at a moment; none if there is no such call yet. -/
def phase? (run : Run config) (id n : Nat) : Option Phase :=
  (run.world n).machine.calls[id]?.map Call.phase

/-- A cancellation of call `id` wins at a moment. -/
structure CancelWins (run : Run config) (id n : Nat) : Prop where
  moves : run.mover? n = some (.cancelling id .entry)
  pending : run.phase? id n = some .pending
  cancelled : run.phase? id (n + 1) = some .cancelled

/-- An execution of call `id` completes it at a moment. -/
structure Completes (run : Run config) (id n : Nat) : Prop where
  moves : ∃ stage, run.mover? n = some (.executing id stage)
  pending : run.phase? id n = some .pending
  completed : run.phase? id (n + 1) = some .completed

/-- **What becomes of the phase of a call in a moment.** -/
theorem phase_next (hphase : run.phase? id n = some phase) :
    run.phase? id (n + 1) = some phase ∨ run.CancelWins id n ∨ run.Completes id n := by
  obtain ⟨call, hcall, rfl⟩ := Option.map_eq_some_iff.mp hphase
  rcases run.moves n with ⟨-, hsame⟩ | ⟨hstep, -⟩
  · left
    rw [phase?, hsame]
    exact hphase
  · obtain ⟨call', hcall', hkept | ⟨hpending, hcompleted | hcancelled⟩⟩ := hstep.phase_cases hcall
    · exact .inl (by rw [phase?, hcall', Option.map_some, hkept])
    · refine .inr (.inr ⟨hcompleted.2, by rw [hphase, hpending], ?_⟩)
      rw [phase?, hcall', Option.map_some, hcompleted.1]
    · refine .inr (.inl ⟨hcancelled.2, by rw [hphase, hpending], ?_⟩)
      rw [phase?, hcall', Option.map_some, hcancelled.1]

/-- **A phase that is not pending never changes again.** -/
theorem phase_stays (hnm : n ≤ m) (hphase : run.phase? id n = some phase)
    (hleft : phase ≠ .pending) : run.phase? id m = some phase := by
  induction hnm with
  | refl => exact hphase
  | step _ ih =>
    rcases phase_next ih with hkept | hwins | hcompletes
    · exact hkept
    · cases ih.symm.trans hwins.pending
      exact absurd rfl hleft
    · cases ih.symm.trans hcompletes.pending
      exact absurd rfl hleft

/-- A call is pending at first. -/
theorem phase_first (hnone : run.phase? id n = none)
    (hphase : run.phase? id (n + 1) = some phase) : phase = .pending := by
  obtain ⟨call, hcall, rfl⟩ := Option.map_eq_some_iff.mp hphase
  rcases run.moves n with ⟨-, hsame⟩ | ⟨hstep, -⟩
  · rw [phase?, ← hsame, hcall] at hnone
    cases hnone
  · have hid := List.getElem?_eq_none_iff.mp (Option.map_eq_none_iff.mp hnone)
    obtain ⟨-, -, request, decoder, rfl⟩ := hstep.new_call hid hcall
    rfl

/-- **A call is cancelled exactly if a cancellation has won.** -/
theorem cancelled_iff : run.phase? id m = some .cancelled ↔ ∃ n < m, run.CancelWins id n := by
  constructor
  · intro hcancelled
    induction m with
    | zero =>
      rw [phase?, run.starts] at hcancelled
      cases hcancelled
    | succ m ih =>
      cases hphase : run.phase? id m with
      | none => cases phase_first hphase hcancelled
      | some phase =>
        rcases phase_next hphase with hkept | hwins | hcompletes
        · rw [hkept] at hcancelled
          cases hcancelled
          obtain ⟨n, hn, hwins⟩ := ih hphase
          exact ⟨n, Nat.lt_succ_of_lt hn, hwins⟩
        · exact ⟨m, Nat.lt_succ_self m, hwins⟩
        · cases hcancelled.symm.trans hcompletes.completed
  · rintro ⟨n, hn, hwins⟩
    exact phase_stays hn hwins.cancelled (by decide)

end Run

/-! ## 2. The abort handle fires once -/

/-- The connections that are aborted, in order. -/
def Log.aborted (log : Log) : List ConnId :=
  log.filterMap fun
    | .effect (.abort conn) => some conn
    | _ => none

theorem Log.mem_aborted {log : Log} {conn : ConnId} : conn ∈ log.aborted ↔ log.Aborted conn := by
  unfold Log.aborted Log.Aborted
  rw [List.mem_filterMap]
  constructor
  · rintro ⟨event, hmem, hevent⟩
    split at hevent
    · cases hevent
      exact hmem
    · cases hevent
  · intro hmem
    exact ⟨_, hmem, rfl⟩

/-- Whether a task cancels call `id`. -/
def Task.cancels (id : Nat) : Task → Bool
  | .cancelling other _ => other == id
  | _ => false

/-- Whether a cancellation has won and may fire the abort handle. -/
def CancelStage.mayFire : CancelStage → Bool
  | claimed => true
  | _ => false

/-- Whether a task has won to cancel call `id` and may fire the abort handle. -/
def Task.mayFire (id : Nat) : Task → Bool
  | .cancelling other stage => other == id && stage.mayFire
  | _ => false

section

variable {machine machine' : Machine} {mover? : Option Task} {pool pool' : Pool} {call call' : Call}
  {log events : Log} {id : Nat} {conn : ConnId}

/-- A cancellation that may fire has won, and it fires once. -/
theorem CancelMove.fires_le {stage stage' : CancelStage}
    (h : CancelMove call stage call' stage' events) :
    (Log.aborted events).length + stage'.mayFire.toNat + call.isCancelled.toNat ≤
      stage.mayFire.toNat + call'.isCancelled.toNat := by
  cases h with
  | won hpending =>
    have huncancelled : (call.phase == .cancelled) = false := by rw [hpending]; rfl
    simp [Log.aborted, CancelStage.mayFire, Call.isCancelled, huncancelled]
  | lost => simp [Log.aborted, CancelStage.mayFire]
  | fired => simp [Log.aborted, CancelStage.mayFire, Call.isCancelled]
  | spared => simp [Log.aborted, CancelStage.mayFire]

/-- Whether call `id` is cancelled. -/
def Machine.isCancelled (machine : Machine) (id : Nat) : Bool :=
  machine.calls[id]?.any Call.isCancelled

theorem Step.isCancelled_le (h : Step machine mover? machine' events) (id : Nat) :
    (machine.isCancelled id).toNat ≤ (machine'.isCancelled id).toNat := by
  unfold Machine.isCancelled
  cases hcall : machine.calls[id]? with
  | none => exact Nat.zero_le _
  | some call =>
    obtain ⟨call', hcall', hkeeps⟩ := h.calls_kept hcall
    rw [hcall', Option.any_some, Option.any_some]
    cases hcancelled : call.isCancelled with
    | true => exact Nat.le_of_eq (by rw [hkeeps.cancelled hcancelled])
    | false => exact Nat.zero_le _

/-- What becomes of the tasks that may fire: one that cancels the call moves, or they stay. -/
theorem Step.cancel_cases (h : Step machine mover? machine' events) (id : Nat) :
    (mover?.any (Task.cancels id) = false ∧
      machine'.tasks.countP (Task.mayFire id) = machine.tasks.countP (Task.mayFire id)) ∨
    ∃ stage stage' call call', mover? = some (.cancelling id stage) ∧
      machine.calls[id]? = some call ∧ machine'.calls[id]? = some call' ∧
      CancelMove call stage call' stage' events ∧
      machine'.tasks.countP (Task.mayFire id) + stage.mayFire.toNat =
        machine.tasks.countP (Task.mayFire id) + stage'.mayFire.toNat := by
  cases h with
  | newCall | newBatch | addItem => exact .inl ⟨rfl, rfl⟩
  | spawn hfresh =>
    refine .inl ⟨rfl, ?_⟩
    cases hfresh <;> simp [Task.mayFire, CancelStage.mayFire]
  | enqueue | poll => exact .inl ⟨rfl, by simp [Task.mayFire]⟩
  | @cancelling before after other stage stage' call call' events htasks hfound hmove =>
    have hcount : ∀ stage'', (before ++ .cancelling other stage'' :: after).countP
        (Task.mayFire id) = (before ++ after).countP (Task.mayFire id) +
          (other == id && stage''.mayFire).toNat := fun _ => countP_around _
    rw [htasks, hcount, hcount]
    by_cases hself : other = id
    · subst hself
      simp only [beq_self_eq_true, Bool.true_and]
      have hid := (List.getElem?_eq_some_iff.mp hfound).1
      refine .inr ⟨stage, stage', call, call', rfl, hfound, List.getElem?_set_self hid, hmove, ?_⟩
      omega
    · have hother : (other == id) = false := beq_false_of_ne hself
      exact .inl ⟨hother, by rw [hother, Bool.false_and, Bool.false_and]⟩
  | executing htasks | working htasks | stopping htasks =>
    refine .inl ⟨rfl, ?_⟩
    rw [htasks, countP_around, countP_around]
    rfl
  | collecting htasks =>
    refine .inl ⟨rfl, ?_⟩
    rw [htasks, List.countP_append, countP_around, countP_around, List.countP_replicate]
    rfl

/-- **A step lets the abort handle fire only if it cancels the call.** -/
theorem Step.fires_le (h : Step machine mover? machine' events) (id : Nat) :
    (if mover?.any (Task.cancels id) then Log.aborted events else []).length +
        machine'.tasks.countP (Task.mayFire id) + (machine.isCancelled id).toNat ≤
      machine.tasks.countP (Task.mayFire id) + (machine'.isCancelled id).toNat := by
  rcases h.cancel_cases id with ⟨hother, hcount⟩ |
    ⟨stage, stage', call, call', rfl, hcall, hcall', hmove, hcount⟩
  · have hcancelled := h.isCancelled_le id
    rw [hother, if_neg Bool.false_ne_true, List.length_nil, hcount]
    omega
  · have hfires := hmove.fires_le
    have hself : (some (Task.cancelling id stage)).any (Task.cancels id) = true :=
      beq_self_eq_true id
    rw [if_pos hself, Machine.isCancelled, Machine.isCancelled, hcall, hcall', Option.any_some,
      Option.any_some]
    omega

end

namespace Run

variable {config : Config} (run : Run config) (id n : Nat)

/-- The connections that the cancellations of call `id` have aborted before moment `n`. -/
def abortsOf : List ConnId :=
  (List.range n).flatMap fun m =>
    if (run.mover? m).any (Task.cancels id) then Log.aborted (run.events m) else []

theorem abortsOf_succ : run.abortsOf id (n + 1) = run.abortsOf id n ++
    if (run.mover? n).any (Task.cancels id) then Log.aborted (run.events n) else [] := by
  unfold abortsOf
  rw [List.range_succ, List.flatMap_append, List.flatMap_singleton]

/-- **The abort handle of a call fires at most once**, and only after the call is cancelled. -/
theorem abortsOf_length_le :
    (run.abortsOf id n).length + (run.world n).machine.tasks.countP (Task.mayFire id) ≤
      ((run.world n).machine.isCancelled id).toNat := by
  induction n with
  | zero =>
    rw [run.starts]
    exact Nat.le_refl 0
  | succ n ih =>
    rw [abortsOf_succ, List.length_append]
    rcases run.moves n with ⟨hmover, hsame⟩ | ⟨hstep, -⟩
    · rw [hmover, hsame]
      exact ih
    · have hfires := hstep.fires_le id
      omega

end Run

/-! ## 3. What becomes of an aborted connection -/

/-- The connection has been closed, or an execution of call `id` has it. -/
def World.Retains (world : World) (id : Nat) (conn : ConnId) : Prop :=
  conn ∈ world.log.closed ∨
    ∃ stage, .executing id stage ∈ world.machine.tasks ∧ stage.conn? = some conn

section

variable {machine machine' : Machine} {mover? : Option Task} {pool pool' : Pool} {call call' : Call}
  {log events : Log} {id : Nat} {conn : ConnId}

/-- An execution keeps its connection, or closes it, or gives it back. -/
theorem CallMove.conn_cases {stage stage' : CallStage}
    (h : CallMove id pool call stage pool' call' stage' events) (hconn : stage.conn? = some conn) :
    stage'.conn? = some conn ∨ conn ∈ Log.closed events ∨ conn ∈ pool'.idle := by
  cases h with
  | registered | interrupted | dispatched | sent | sendFailed | received | receiveFailed
  | withdrawn | beaten | succeeded | failed => exact .inl hconn
  | panicked hholding =>
    rw [CallStage.conn?_grip, hconn] at hholding
    cases hholding
    exact .inr (.inr (List.mem_cons_self ..))
  | @released other broken result =>
    cases hconn
    right
    rw [Pool.closed_giveBackEvents]
    cases broken with
    | true => exact .inl (List.mem_singleton_self _)
    | false => exact .inr (List.mem_cons_self ..)
  | _ => cases hconn

/-- An execution registers its connection in one step. -/
theorem CallMove.registered_of_abort {stage stage' : CallStage}
    (h : CallMove id pool call stage pool' call' stage' events) (habort : call'.abort = some conn) :
    call.abort = some conn ∨ stage' = .registered conn := by
  cases h with
  | registered =>
    cases habort
    exact .inr rfl
  | withdrawn => cases habort
  | _ => exact .inl habort

/-- A connection is newly registered for a call only by an execution of it that has it. -/
theorem Step.registers_call (h : Step machine mover? machine' events)
    (hregisters : machine'.Registers conn (.call id)) :
    machine.Registers conn (.call id) ∨ .executing id (.registered conn) ∈ machine'.tasks := by
  obtain ⟨hfound', habort⟩ := hregisters
  cases h with
  | newCall request decoder =>
    rcases getElem?_of_append_singleton hfound' with hfound | ⟨-, rfl⟩
    · exact .inl (.call hfound habort)
    · cases habort
  | executing htasks hfound hmove =>
    rcases getElem?_of_set hfound' with ⟨rfl, rfl⟩ | hfound'
    · rcases hmove.registered_of_abort habort with habort | rfl
      · exact .inl (.call hfound habort)
      · exact .inr (mem_around.mpr (.inr rfl))
    · exact .inl (.call hfound' habort)
  | cancelling htasks hfound hmove =>
    rcases getElem?_of_set hfound' with ⟨rfl, rfl⟩ | hfound'
    · exact .inl (.call hfound (hmove.abort_eq habort))
    · exact .inl (.call hfound' habort)
  | _ => exact .inl (.call hfound' habort)

/-- **A connection that is registered or was aborted is not given back**: it stays with its
execution until it is closed. -/
theorem Step.retains (h : Step machine mover? machine' events)
    (hexposure : Exposure machine' (log ++ events)) (hnew : ¬ (log ++ events).Struck conn)
    (hknown : machine'.Registers conn (.call id) ∨ (log ++ events).Aborted conn)
    (hretains : World.Retains ⟨machine, log⟩ id conn) :
    World.Retains ⟨machine', log ++ events⟩ id conn := by
  have hbusy : conn ∉ machine'.pool.idle := by
    intro hidle
    have hclaim := hexposure.spare conn (.inl hidle) hnew
    rcases hknown with hregisters | haborted
    · cases hclaim.registered _ hregisters
    · obtain ⟨place, hplace, -⟩ := hclaim.shown (.inl haborted)
      cases hplace
  have hclosed : conn ∈ log.closed ∨ conn ∈ Log.closed events →
      World.Retains ⟨machine', log ++ events⟩ id conn := by
    intro hclosed
    left
    rw [Log.closed_append]
    exact List.mem_append.mpr hclosed
  rcases hretains with hbefore | ⟨stage, hmem, hconn⟩
  · exact hclosed (.inl hbefore)
  · rcases h.mem_tasks hmem with hstays | rfl
    · exact .inr ⟨stage, hstays, hconn⟩
    · cases h with
      | executing htasks hfound hmove =>
        rcases hmove.conn_cases hconn with hkept | hnow | hidle
        · exact .inr ⟨_, mem_around.mpr (.inr rfl), hkept⟩
        · exact hclosed (.inr hnow)
        · exact absurd hidle hbusy

end

/-- **A connection that is registered for a call is with an execution of the call, or closed.** -/
theorem World.Reachable.registered_retained {config : Config} {world : World}
    (h : Reachable config world) {id : Nat} {conn : ConnId}
    (hregisters : world.machine.Registers conn (.call id)) (hunstruck : ¬ world.log.Struck conn) :
    world.Retains id conn := by
  induction h with
  | new =>
    obtain ⟨hfound, -⟩ := hregisters
    cases hfound
  | @step world next label hbefore htaken ih =>
    have hexposure := (hbefore.step htaken).exposure
    obtain ⟨events, hstep, hlog⟩ := World.step_ok htaken
    obtain ⟨machine', log'⟩ := next
    obtain rfl : log' = world.log ++ events := hlog
    rcases hstep.registers_call hregisters with hold | hmem
    · exact hstep.retains hexposure hunstruck (.inl hregisters)
        (ih hold (Log.unstruck_of_append hunstruck))
    · exact .inr ⟨_, hmem, rfl⟩

namespace Run

variable {config : Config} {run : Run config} {id n : Nat} {conn : ConnId}

/-- What a cancellation of call `id` aborts was registered for the call. -/
theorem registers_of_abort (hmover : (run.mover? n).any (Task.cancels id) = true)
    (habort : conn ∈ Log.aborted (run.events n)) :
    (run.world n).machine.Registers conn (.call id) := by
  rcases run.moves n with ⟨hnone, -⟩ | ⟨hstep, -⟩
  · rw [hnone] at hmover
    cases hmover
  · rcases hstep.cancel_cases id with ⟨hother, -⟩ | ⟨_, _, call, _, -, hcall, -, hmove, -⟩
    · exact absurd (hmover.symm.trans hother) (by simp)
    · exact .call hcall (hmove.abort_registered (Log.mem_aborted.mp habort)).2

/-- **What the cancellations of a call abort is discarded**: it is with an execution of the call
until it is closed. -/
theorem retains_of_abort (hconn : conn ∈ run.abortsOf id n)
    (hunstruck : ¬ (run.world n).log.Struck conn) :
    (run.world n).log.Aborted conn ∧ (run.world n).Retains id conn := by
  induction n with
  | zero => exact absurd hconn List.not_mem_nil
  | succ n ih =>
    have hreachable := run.reachable (n + 1)
    rw [abortsOf_succ] at hconn
    rcases run.moves n with ⟨hnone, hsame⟩ | ⟨hstep, hlog⟩
    · rw [hnone, Option.any_none, if_neg Bool.false_ne_true, List.append_nil] at hconn
      rw [hsame] at hunstruck ⊢
      exact ih hconn hunstruck
    · generalize run.world (n + 1) = next at hreachable hstep hlog hunstruck
      obtain ⟨machine', log'⟩ := next
      obtain rfl : log' = (run.world n).log ++ run.events n := hlog
      have hbefore : ¬ (run.world n).log.Struck conn := Log.unstruck_of_append hunstruck
      have hself : Log.Aborted ((run.world n).log ++ run.events n) conn ∧
          (run.world n).Retains id conn := by
        rcases List.mem_append.mp hconn with hold | hnow
        · exact (ih hold hbefore).imp_left (List.mem_append_left _)
        · split at hnow
          · refine ⟨List.mem_append_right _ (Log.mem_aborted.mp hnow), ?_⟩
            exact (run.reachable n).registered_retained (registers_of_abort ‹_› hnow) hbefore
          · exact absurd hnow List.not_mem_nil
      exact ⟨hself.1, hstep.retains hreachable.exposure hunstruck (.inr hself.1) hself.2⟩

end Run

end RemoteCall.Client
