/-
# The course of a future

A future is made, perhaps cancelled, polled for the first time, polled again until it resolves, and
at some moment dropped.  Here these moments are told by what its users did (`Usage.Unpolled`,
`FirstPoll`, `Recalled`, `Resolves`), and each is tied to what the future notes of it: whether it
has a clone, whether it is finished, and where a cancellation before the first poll has left its
mark, which is on a future of a call itself but on the batch for a future of a batch.

`Usage.Tends` says which tasks are at work for a future, and `Tends.worksFor` for whom these tasks
work: for its clone, except that a cancellation of a future of a batch works for the batch as long
as there is no clone.
-/
import RemoteCall.Proofs.Client.Futures.Tending

namespace RemoteCall.Client

namespace Usage

/-! ## 1. Moments -/

section

variable {config : Config} (usage : Usage config) (f n : Nat)

/-- Future number `f` is made from a call or batch. -/
def Made (template : User) : Prop :=
  ∃ n, usage.use? n = some (.adapt template) ∧ (usage.scene n).held.length = f

/-- Nobody has polled the future so far. -/
def Unpolled : Prop := ∀ k < n, usage.use? k ≠ some (.poll f)

/-- The future is polled for the first time. -/
def FirstPoll : Prop := usage.use? n = some (.poll f) ∧ usage.Unpolled f n

/-- The future was cancelled before its first poll. -/
def Recalled : Prop := ∃ k < n, usage.use? k = some (.cancel f) ∧ usage.Unpolled f k

/-- At its first poll the future counts as cancelled: it was cancelled itself, or what it was made
from is cancelled. -/
def CalledOff (template : User) : Prop :=
  usage.Recalled f n ∨ (usage.scene n).world.machine.looksCancelled template = true

/-- A poll of the future answers, as none did before. -/
structure Resolves (resolution : Resolution) : Prop where
  polled : usage.use? n = some (.poll f)
  answer_eq : (usage.scene n).answer? f = some resolution
  first : ∀ k < n, usage.use? k = some (.poll f) → (usage.scene k).answer? f = none

/-- The future is used, or made. -/
def Uses : Prop := ∃ use, usage.use? n = some use ∧ (usage.scene n).used? use = some f

/-- The clone that the future runs. -/
def clone? : Option User := (usage.scene n).held[f]?.bind (·.future.clone?)

/-- Task `j` is at work for the future: a use of the future has started it, or it works on the batch
that the future runs. -/
inductive Tends (j : Nat) : Prop
  | begun {k : Nat} (before : k < n) (used : usage.Uses f k)
    (later : (usage.scene k).world.machine.tasks.length ≤ j)
    (started : j < (usage.scene (k + 1)).world.machine.tasks.length) : Tends j
  | hired {clone : Nat} {stage : WorkerStage} (runs : usage.clone? f n = some (.batch clone))
    (task_eq : (usage.scene n).world.machine.tasks[j]? = some (.working clone stage)) : Tends j

/-- A task that is at work for the future asks the endpoint for something. -/
def Asks : Prop :=
  ∃ j, usage.Tends f n j ∧ ((usage.scene n).world.machine.operation? j).isSome = true

/-- Something is done for the future: it is used, or a task that is at work for it moves. -/
def Acts : Prop :=
  usage.Uses f n ∨ ∃ label j, usage.use? n = some (.client label) ∧ label.task? = some j ∧
    usage.Tends f n j

end

/-! ## 2. What a future notes -/

section

variable {config : Config} {usage : Usage config} {f n m k : Nat} {held : Held} {template : User}
  {future : Future}

/-- Who uses a future has it. -/
theorem held_of_use {use : Use} (huse : usage.use? n = some use)
    (hf : use = .cancel f ∨ use = .poll f ∨ use = .drop f) :
    ∃ future, (usage.scene n).held[f]? = some ⟨future, false⟩ := by
  have hgoes := goes_of_use huse
  generalize usage.scene (n + 1) = next at hgoes
  rcases hf with rfl | rfl | rfl
  · cases hgoes with
    | cancel hfound => exact ⟨_, hfound⟩
  · cases hgoes with
    | poll hfound => exact ⟨_, hfound⟩
  · cases hgoes with
    | drop hfound => exact ⟨_, hfound⟩

theorem has_template (hheld : (usage.scene n).held[f]? = some held) :
    (usage.scene n).world.machine.Has held.future.template :=
  (usage.sound n).known held (List.mem_of_getElem? hheld)

/-- No future goes away. -/
theorem length_held_le (hnm : n ≤ m) :
    (usage.scene n).held.length ≤ (usage.scene m).held.length := by
  induction hnm with
  | refl => exact Nat.le_refl _
  | @step m _ ih =>
    rcases usage.next m with ⟨-, hsame⟩ | ⟨use, -, hstep⟩
    · exact hsame ▸ ih
    · exact Nat.le_trans ih hstep.length_held_le

/-- Nobody uses a future that is not there yet. -/
theorem lt_of_use {use : Use} (huse : usage.use? k = some use)
    (hf : use = .cancel f ∨ use = .poll f ∨ use = .drop f) (hkn : k ≤ n) :
    f < (usage.scene n).held.length := by
  obtain ⟨future, hheld⟩ := held_of_use huse hf
  exact Nat.lt_of_lt_of_le (List.getElem?_eq_some_iff.mp hheld).1 (length_held_le hkn)

/-- A future is made from one thing. -/
theorem Made.unique {other : User} (h : usage.Made f template)
    (huse : usage.use? n = some (.adapt other)) (hf : (usage.scene n).held.length = f) :
    other = template := by
  obtain ⟨k, huse', hf'⟩ := h
  -- after it is made there are more futures than that
  have hgrows : ∀ {n other}, usage.use? n = some (.adapt other) →
      (usage.scene (n + 1)).held.length = (usage.scene n).held.length + 1 := by
    intro n other huse
    have hgoes := goes_of_use huse
    generalize usage.scene (n + 1) = next at hgoes ⊢
    cases hgoes
    simp
  have hsame : n = k := by
    by_contra hne
    rcases Nat.lt_or_gt_of_ne hne with hlt | hlt
    · have hle : _ ≤ (usage.scene k).held.length := length_held_le hlt
      rw [hgrows huse] at hle
      omega
    · have hle : _ ≤ (usage.scene n).held.length := length_held_le hlt
      rw [hgrows huse'] at hle
      omega
  subst hsame
  cases huse.symm.trans huse'
  rfl

/-- **A future stays one of what it was made from.** -/
theorem Made.template_eq (h : usage.Made f template)
    (hheld : (usage.scene n).held[f]? = some held) : held.future.template = template := by
  refine usage.held_induct f (P := fun _ held => held.future.template = template)
    (fun n other huse hf => ?_) (fun n held held' hheld _ hbecomes ih => ?_) hheld
  · rw [Future.template_of, h.unique huse hf]
  · rw [hbecomes.template_eq (has_template hheld), ih]

/-- What a future notes of being polled. -/
inductive Notes (usage : Usage config) (f n : Nat) (held : Held) : Prop
  | unpolled (unpolled : usage.Unpolled f n) (unfinished : held.future.finished = false)
    (idle : held.future.running = none) : Notes usage f n held
  | polled (polled : ¬ usage.Unpolled f n) {running : TaskId × Nat}
    (runs : held.future.running = some running) : Notes usage f n held
  /-- A future of a call that was cancelled has not run anything. -/
  | withheld (polled : ¬ usage.Unpolled f n) (finished : held.future.finished = true) {id : Nat}
    (template_eq : held.future.template = .call id) : Notes usage f n held

theorem unpolled_succ :
    usage.Unpolled f (n + 1) ↔ usage.Unpolled f n ∧ usage.use? n ≠ some (.poll f) :=
  Nat.forall_lt_succ_right

/-- **A future notes that it was polled**: from its first poll on it has a clone, unless it is one
of a call that was cancelled. -/
theorem notes (hheld : (usage.scene n).held[f]? = some held) : usage.Notes f n held := by
  refine usage.held_induct f (P := fun n held => usage.Notes f n held)
    (fun n other huse hf => ?_) (fun n held held' hheld hheld' hbecomes ih => ?_) hheld
  · refine .unpolled (fun k hk hpoll => ?_) Future.finished_of Future.running_of
    exact absurd (lt_of_use hpoll (.inr (.inl rfl)) (Nat.le_of_lt_succ hk)) (by simp [hf])
  · have hhas := has_template hheld
    have hstays : ¬ usage.Unpolled f n → ¬ usage.Unpolled f (n + 1) :=
      fun hpolled hunpolled => hpolled (unpolled_succ.mp hunpolled).1
    cases ih with
    | polled hpolled hruns => exact .polled (hstays hpolled) (hbecomes.running_eq hhas hruns)
    | withheld hpolled hfinished htemplate =>
      exact .withheld (hstays hpolled) (hbecomes.finished_eq hhas hfinished)
        ((hbecomes.template_eq hhas).trans htemplate)
    | unpolled hunpolled hunfinished hidle =>
      generalize huse : usage.use? n = use? at hbecomes
      cases hbecomes with
      | kept _ hother =>
        exact .unpolled (unpolled_succ.mpr ⟨hunpolled, huse ▸ hother⟩) hunfinished hidle
      | cancelled =>
        exact .unpolled (unpolled_succ.mpr ⟨hunpolled, by rw [huse]; simp⟩)
          (Future.finished_cancel.trans hunfinished) (Future.running_cancel.trans hidle)
      | dropped =>
        exact .unpolled (unpolled_succ.mpr ⟨hunpolled, by rw [huse]; simp⟩) hunfinished hidle
      | polled =>
        have hpolled : ¬ usage.Unpolled f (n + 1) :=
          fun hunpolled' => (unpolled_succ.mp hunpolled').2 huse
        have hpoll := Future.poll_ok hhas
        generalize held.future.poll (usage.scene n).world.machine = polled at hpoll ⊢
        cases hpoll with
        | spent hfinished => exact absurd (hfinished.symm.trans hunfinished) (by simp)
        | pending _ hrunning | resolved _ hrunning =>
          exact absurd (hrunning.symm.trans hidle) (by simp)
        | withheld _ _ htemplate =>
          exact .withheld hpolled Future.finished_finish (Future.template_finish.trans htemplate)
        | startedCall | startedBatch => exact .polled hpolled Future.running_start

/-- A future that was not polled has no clone. -/
theorem Unpolled.idle (h : usage.Unpolled f n) (hheld : (usage.scene n).held[f]? = some held) :
    held.future.finished = false ∧ held.future.running = none := by
  cases notes hheld with
  | unpolled _ hunfinished hidle => exact ⟨hunfinished, hidle⟩
  | polled hpolled | withheld hpolled => exact absurd h hpolled

/-- A future of a batch that has no clone was not polled. -/
theorem unpolled_of_idle {id : Nat} (hheld : (usage.scene n).held[f]? = some held)
    (hidle : held.future.running = none) (htemplate : held.future.template = .batch id) :
    usage.Unpolled f n := by
  cases notes hheld with
  | unpolled hunpolled => exact hunpolled
  | polled _ hruns => cases hruns.symm.trans hidle
  | withheld _ _ hcall => cases hcall.symm.trans htemplate

/-- A future that notes that it was cancelled was. -/
theorem cancelled_of_flagged (hheld : (usage.scene n).held[f]? = some held)
    (hflagged : held.future.flagged = true) : ∃ k < n, usage.use? k = some (.cancel f) := by
  refine usage.held_induct f (P := fun n held => held.future.flagged = true →
    ∃ k < n, usage.use? k = some (.cancel f))
    (fun n other _ _ hflagged => ?_) (fun n held held' hheld _ hbecomes ih hflagged => ?_) hheld
    hflagged
  · cases Future.flagged_of.symm.trans hflagged
  · have hbefore : held.future.flagged = true → ∃ k < n + 1, usage.use? k = some (.cancel f) := by
      intro hflagged
      obtain ⟨k, hk, huse⟩ := ih hflagged
      exact ⟨k, Nat.lt_succ_of_lt hk, huse⟩
    generalize huse : usage.use? n = use? at hbecomes
    cases hbecomes with
    | kept | dropped => exact hbefore hflagged
    | cancelled => exact ⟨n, Nat.lt_succ_self n, huse⟩
    | polled => exact hbefore ((Future.flagged_poll (has_template hheld)).symm.trans hflagged)

/-- What the client makes of a moment of use. -/
theorem looksCancelled_next {user : User}
    (h : (usage.scene n).world.machine.looksCancelled user = true) :
    (usage.scene (n + 1)).world.machine.looksCancelled user = true :=
  Machine.looksCancelled_after h (usage.after_labels n)

/-- Who cancels a future of a batch before its first poll marks the batch. -/
theorem marks_of_cancel {id : Nat} (huse : usage.use? n = some (.cancel f))
    (hheld : (usage.scene n).held[f]? = some held) (hidle : held.future.running = none)
    (htemplate : held.future.template = .batch id) :
    (usage.scene (n + 1)).world.machine.looksCancelled (.batch id) = true := by
  have hgoes := goes_of_use huse
  generalize usage.scene (n + 1) = next at hgoes ⊢
  cases hgoes with
  | cancel hfound htaken =>
    cases hheld.symm.trans hfound
    rw [Future.target_of_idle hidle htemplate] at htaken
    obtain ⟨batch, -, hflagged⟩ := (World.starting_ok htaken).flagged id rfl
    simp [Machine.looksCancelled, hflagged]

/-- **A cancellation before the first poll has left its mark**, on the future or on the batch. -/
theorem marks_of_recalled (hheld : (usage.scene n).held[f]? = some held)
    (hunpolled : usage.Unpolled f n) (hrecalled : usage.Recalled f n) :
    held.future.flagged = true ∨
      (usage.scene n).world.machine.looksCancelled held.future.template = true := by
  refine usage.held_induct f (P := fun n held => usage.Unpolled f n → usage.Recalled f n →
    held.future.flagged = true ∨
      (usage.scene n).world.machine.looksCancelled held.future.template = true)
    (fun n other _ hf _ hrecalled => ?_)
    (fun n held held' hheld _ hbecomes ih hunpolled hrecalled => ?_) hheld hunpolled hrecalled
  · obtain ⟨k, hk, huse, -⟩ := hrecalled
    exact absurd (lt_of_use huse (.inl rfl) (Nat.le_of_lt_succ hk)) (by simp [hf])
  · obtain ⟨hbefore, hother⟩ := unpolled_succ.mp hunpolled
    have htemplate := hbecomes.template_eq (has_template hheld)
    obtain ⟨k, hk, hcancel, hk'⟩ := hrecalled
    rcases Nat.lt_succ_iff_lt_or_eq.mp hk with hlt | rfl
    · refine (ih hbefore ⟨k, hlt, hcancel, hk'⟩).imp (fun hflagged => ?_) fun hlooks => ?_
      · exact hbecomes.flagged_eq (has_template hheld) hflagged
      · exact htemplate ▸ looksCancelled_next hlooks
    · rw [hcancel] at hbecomes
      cases hbecomes with
      | kept huncancelled => exact absurd rfl huncancelled
      | cancelled =>
        refine Future.flagged_cancel.imp_right fun hbatch => ?_
        obtain ⟨id, hid⟩ := hbatch
        rw [Future.template_cancel, hid]
        exact marks_of_cancel hcancel hheld (hbefore.idle hheld).2 hid

/-- **What a future finds at its first poll** is what was done before. -/
theorem FirstPoll.calledOff_iff (h : usage.FirstPoll f n)
    (hheld : (usage.scene n).held[f]? = some held) :
    usage.CalledOff f n held.future.template ↔ held.future.flagged = true ∨
      (usage.scene n).world.machine.looksCancelled held.future.template = true := by
  constructor
  · rintro (hrecalled | hlooks)
    · exact marks_of_recalled hheld h.2 hrecalled
    · exact .inr hlooks
  · rintro (hflagged | hlooks)
    · obtain ⟨k, hk, huse⟩ := cancelled_of_flagged hheld hflagged
      exact .inl ⟨k, hk, huse, fun m hm => h.2 m (Nat.lt_trans hm hk)⟩
    · exact .inr hlooks

end

/-! ## 3. For whom tasks work -/

section

variable {config : Config} {usage : Usage config} {f n m j : Nat} {held : Held}

/-- A task works for the clone that a future runs, or it cancels the batch that the future was made
from. -/
inductive WorksFor (usage : Usage config) (f n j : Nat) : Prop
  | clone {task : Task} {held : Held}
    (task_eq : (usage.scene n).world.machine.tasks[j]? = some task)
    (held_eq : (usage.scene n).held[f]? = some held)
    (clone_eq : held.future.clone? = some task.user) : WorksFor usage f n j
  | template {id : Nat} {stage : StopStage} {held : Held}
    (task_eq : (usage.scene n).world.machine.tasks[j]? = some (.stopping id stage))
    (held_eq : (usage.scene n).held[f]? = some held)
    (template_eq : held.future.template = .batch id) (recalled : usage.Recalled f n) :
    WorksFor usage f n j

theorem Recalled.mono (h : usage.Recalled f n) (hnm : n ≤ m) : usage.Recalled f m := by
  obtain ⟨k, hk, hrecalled⟩ := h
  exact ⟨k, Nat.lt_of_lt_of_le hk hnm, hrecalled⟩

/-- A task stays there for what it was. -/
theorem task_next {task : Task} (htask : (usage.scene n).world.machine.tasks[j]? = some task) :
    ∃ task', (usage.scene (n + 1)).world.machine.tasks[j]? = some task' ∧
      task'.origin = task.origin := by
  rcases usage.next n with ⟨-, hsame⟩ | ⟨use, -, hstep⟩
  · exact ⟨task, hsame ▸ htask, rfl⟩
  · obtain ⟨added, horigins, -⟩ := (usage.sound n).origins_eq hstep
    exact Machine.task_of_origins horigins htask

/-- What a future runs it goes on with. -/
theorem clone_next {user : User} (hheld : (usage.scene n).held[f]? = some held)
    (hclone : held.future.clone? = some user) :
    ∃ held', (usage.scene (n + 1)).held[f]? = some held' ∧ held'.future.clone? = some user := by
  obtain ⟨held', hheld', hbecomes⟩ := held_next hheld
  obtain ⟨i, clone, hrunning, rfl⟩ := Future.clone?_eq_some.mp hclone
  have hhas := has_template hheld
  refine ⟨held', hheld', ?_⟩
  rw [Future.clone?_eq (hbecomes.running_eq hhas hrunning), hbecomes.template_eq hhas]

theorem WorksFor.next (h : usage.WorksFor f n j) : usage.WorksFor f (n + 1) j := by
  cases h with
  | clone htask hheld hclone =>
    obtain ⟨task', htask', horigin⟩ := task_next htask
    obtain ⟨held', hheld', hclone'⟩ := clone_next hheld hclone
    refine .clone htask' hheld' ?_
    rw [hclone', ← Task.user_origin, ← horigin, Task.user_origin]
  | template htask hheld htemplate hrecalled =>
    obtain ⟨task', htask', horigin⟩ := task_next htask
    obtain ⟨held', hheld', hbecomes⟩ := held_next hheld
    have htemplate' := (hbecomes.template_eq (has_template hheld)).trans htemplate
    cases task' with
    | stopping id' stage' =>
      cases horigin
      exact .template htask' hheld' htemplate' (hrecalled.mono (Nat.le_succ n))
    | _ => cases horigin

theorem last_of_origins {machine machine' : Machine} {task : Task}
    (horigins : machine'.origins = machine.origins ++ [task]) (hlater : machine.tasks.length ≤ j)
    (hstarted : j < machine'.tasks.length) :
    ∃ task', machine'.tasks[j]? = some task' ∧ task'.origin = task := by
  have hlength := congrArg List.length horigins
  simp only [Machine.origins, List.length_append, List.length_map, List.length_singleton] at hlength
  obtain rfl : j = machine.tasks.length := by omega
  have hlast : machine'.origins[machine.tasks.length]? = some task := by
    rw [horigins]
    simp [Machine.origins]
  simpa [Machine.origins] using hlast

/-- Who is started by a use of a future works for it. -/
theorem worksFor_of_started (hused : usage.Uses f n)
    (hlater : (usage.scene n).world.machine.tasks.length ≤ j)
    (hstarted : j < (usage.scene (n + 1)).world.machine.tasks.length) :
    usage.WorksFor f (n + 1) j := by
  obtain ⟨use, huse, hf⟩ := hused
  have hdoes := (goes_of_use huse).does (usage.sound n).known hf
  generalize hworld : (usage.scene (n + 1)).world = world at hdoes
  cases hdoes with
  | nothing =>
    rw [hworld] at hstarted
    omega
  | stops hheld htarget htaken =>
    rw [hworld] at hstarted
    obtain ⟨task, htask, horigin⟩ := last_of_origins htaken.origins_eq hlater hstarted
    rw [← hworld] at htask
    rcases htarget with hclone | ⟨rfl, hidle, htemplate, id, rfl⟩
    · obtain ⟨held', hheld', hclone'⟩ := clone_next hheld hclone
      refine .clone htask hheld' ?_
      rw [hclone', ← Task.user_origin, horigin, User.user_stopper]
    · obtain ⟨held', hheld', hbecomes⟩ := held_next hheld
      have htemplate' := (hbecomes.template_eq (has_template hheld)).trans htemplate
      cases task with
      | stopping id' stage' =>
        cases horigin
        exact .template htask hheld' htemplate'
          ⟨n, Nat.lt_succ_self n, huse, unpolled_of_idle hheld hidle htemplate⟩
      | _ => cases horigin
  | starts hheld htaken =>
    obtain ⟨held', hheld', hbecomes⟩ := held_next hheld
    rw [huse] at hbecomes
    rw [hworld] at hstarted
    have horigins := congrArg (List.map Task.origin) htaken.tasks_eq
    rw [List.map_append, List.map_singleton] at horigins
    obtain ⟨task, htask, horigin⟩ := last_of_origins horigins hlater hstarted
    cases hbecomes with
    | kept _ hother => exact absurd rfl hother
    | polled =>
      rw [htaken.poll_eq] at hheld'
      refine .clone (by rw [hworld]; exact htask) hheld' ?_
      rw [Future.clone?_eq Future.running_start, Future.template_start, ← Task.user_origin,
        horigin, Task.user_origin, User.user_runner]

/-- **A task that is at work for a future works for its clone**, or it cancels the batch that the
future was made from because the future was cancelled before its first poll. -/
theorem Tends.worksFor (h : usage.Tends f n j) : usage.WorksFor f n j := by
  cases h with
  | begun hbefore hused hlater hstarted =>
    have hnext := Nat.succ_le_of_lt hbefore
    induction hnext with
    | refl => exact worksFor_of_started hused hlater hstarted
    | step hle ih => exact (ih hle).next
  | hired hruns htask =>
    obtain ⟨held, hheld, hclone⟩ := Option.bind_eq_some_iff.mp hruns
    exact .clone htask hheld hclone

end

end Usage

end RemoteCall.Client
