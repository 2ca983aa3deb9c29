/-
# Clones of a call

A clone is a call of its own.  It begins where every call begins, whatever has become of the call
that it was cloned from (`Run.cloned`), and it stays there until it is executed or cancelled itself
(`Run.untouched`), for the tasks of other calls do not reach it (`Step.apart`).
-/
import RemoteCall.Proofs.Client.Life.Requesting

namespace RemoteCall.Client

section

variable {machine machine' : Machine} {mover? : Option Task} {events : Log} {id : Nat} {call : Call}

/-- **A task that is not one of the call leaves the call as it is.** -/
theorem Step.apart (h : Step machine mover? machine' events)
    (hother : ∀ mover ∈ mover?, mover.call? ≠ some id) (hcall : machine.calls[id]? = some call) :
    machine'.calls[id]? = some call := by
  rcases h.call_cases hcall with ⟨-, hsame⟩ | ⟨stage, _, _, _, rfl, -, -⟩ | ⟨stage, _, _, rfl, -, -⟩
  · exact hsame
  · exact absurd rfl (hother _ rfl)
  · exact absurd rfl (hother _ rfl)

/-- A call keeps its tasks. -/
theorem Step.task_of_call {task : Task} (h : Step machine mover? machine' events)
    (htask : task ∈ machine.tasks) (hcall : task.call? = some id) :
    ∃ task' ∈ machine'.tasks, task'.call? = some id := by
  rcases h.mem_tasks htask with hstays | rfl
  · exact ⟨task, hstays, hcall⟩
  · cases h with
    | executing | cancelling => exact ⟨_, mem_around.mpr (.inr rfl), hcall⟩
    | collecting | working | stopping => cases hcall

end

namespace Run

variable {config : Config} {run : Run config} {id n m : Nat} {call : Call}

/-- No task executes or cancels call `id` at a moment. -/
def Unused (run : Run config) (id n : Nat) : Prop :=
  ∀ task ∈ (run.world n).machine.tasks, task.call? ≠ some id

/-- A call that is not used has not been used before. -/
theorem Unused.before (h : run.Unused id (n + 1)) : run.Unused id n := by
  intro task htask hcall
  rcases run.moves n with ⟨-, hsame⟩ | ⟨hstep, -⟩
  · exact h task (hsame ▸ htask) hcall
  · obtain ⟨task', htask', hcall'⟩ := hstep.task_of_call htask hcall
    exact h task' htask' hcall'

/-- **A call that is not used stays as it is**, and nothing is sent for it. -/
theorem Unused.untouched (h : run.Unused id m) (hnm : n ≤ m)
    (hcall : (run.world n).machine.calls[id]? = some call) :
    (run.world m).machine.calls[id]? = some call ∧
      (run.world m).log.requestsFor (.call id) = [] := by
  constructor
  · induction hnm with
    | refl => exact hcall
    | @step m _ ih =>
      have hbefore := ih h.before
      rcases run.moves m with ⟨-, hsame⟩ | ⟨hstep, -⟩
      · rw [hsame]
        exact hbefore
      · refine hstep.apart (fun mover hmover => ?_) hbefore
        rw [Option.mem_def.mp hmover] at hstep
        exact h.before mover hstep.mover_mem
  · have hle := (run.reachable m).requests_add_le id
    have hnone : (run.world m).machine.tasks.any (Task.hasBegun id) = false :=
      List.any_eq_false.mpr fun task htask =>
        Bool.eq_false_iff.mp (Task.hasBegun_eq_false (h task htask))
    rw [hnone] at hle
    exact List.eq_nil_of_length_eq_zero (Nat.le_zero.mp (Nat.le_of_add_right_le hle))

/-- **A clone begins anew**, and the call that it is cloned from stays as it is. -/
theorem cloned (horder : run.label? n = some (.order (.cloneCall id))) :
    ∃ call, (run.world n).machine.calls[id]? = some call ∧
      run.world (n + 1) = ⟨{ (run.world n).machine with
        calls := (run.world n).machine.calls ++ [call.clone] }, (run.world n).log⟩ := by
  have hgoes := run.goes n
  rw [horder] at hgoes
  obtain ⟨machine, hmachine, hnext⟩ := Option.map_eq_some_iff.mp hgoes
  obtain ⟨call, hcall, rfl⟩ := Option.map_eq_some_iff.mp hmachine
  exact ⟨call, hcall, hnext.symm⟩

end Run

end RemoteCall.Client
