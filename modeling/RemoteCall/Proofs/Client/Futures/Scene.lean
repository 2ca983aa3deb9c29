/-
# Futures in use

Users make futures from calls and batches, poll, cancel and drop them, and use the client otherwise
at the same time.  A `Scene` is a client with all futures that there are, and a `Use` is what
happens next.  What a future runs is a clone of its own: nobody else executes, cancels or extends it
(`Scene.permits`).

For the client a use is two steps at most (`Scene.labels`), so in whatever way futures are used the
client goes through a run (`Usage.run`), and what is known of runs is known of it.

A cancellation that is asked of a future has taken its first step when the user goes on, so the call
or batch is marked then.  One that is ordered of a client is a task like any other and takes its
steps when it gets its turns.
-/
import RemoteCall.Proofs.Client.Futures.Poll

namespace RemoteCall.Client

/-! ## 1. Scenes -/

/-- A future, and whether its user has dropped it. -/
structure Held where
  future : Future
  dropped : Bool

/-- A client and the futures that were made, in order. -/
structure Scene where
  world : World
  held : List Held

/-- What happens next: somebody uses the client, or future number `f`. -/
inductive Use where
  | client (label : Label)
  | adapt (template : User)
  | cancel (f : Nat)
  | poll (f : Nat)
  | drop (f : Nat)

/-- The call or batch that an order extends, cancels or sets somebody to work on. -/
def Order.user? : Order → Option User
  | execute id | cancel id => some (.call id)
  | addItem id _ | collect id | enqueue id | stop id => some (.batch id)
  | newCall .. | cloneCall _ | newBatch | cloneBatch _ | poll _ => none

instance (machine : Machine) (user : User) : Decidable (machine.Has user) :=
  match user with
  | .call id => inferInstanceAs (Decidable (id < machine.calls.length))
  | .batch id => inferInstanceAs (Decidable (id < machine.batches.length))

/-- The world when a task has started, if there is one, and taken its first step. -/
def World.starting (world : World) : (task? : Option Task) → Option World
  | some task =>
    (World.mk (world.machine.spawn task).2 world.log).step (.advance world.machine.tasks.length)
  | none => some world

namespace Scene

/-- A new client, and no futures. -/
def new (config : Config) : Scene := ⟨.new config, []⟩

/-- A future that was not dropped. -/
def future? (scene : Scene) (f : Nat) : Option Future :=
  (scene.held[f]?.filter fun held => !held.dropped).map (·.future)

/-- Whether a future runs the call or batch. -/
def owns (scene : Scene) (user : User) : Bool :=
  scene.held.any fun held => held.future.clone? == some user

/-- Whether a step of the client is no order for what a future runs. -/
def permits (scene : Scene) : Label → Bool
  | .order order => order.user?.all fun user => !scene.owns user
  | _ => true

/-- What a use leaves behind; none if it is not possible. -/
def step (scene : Scene) : Use → Option Scene
  | .client label =>
    if scene.permits label then (scene.world.step label).map (⟨·, scene.held⟩) else none
  | .adapt template =>
    if scene.world.machine.Has template ∧ scene.owns template = false then
      some ⟨scene.world, scene.held ++ [⟨.of template, false⟩]⟩
    else
      none
  | .cancel f => (scene.future? f).bind fun future =>
    (scene.world.starting future.cancel.2).map (⟨·, scene.held.set f ⟨future.cancel.1, false⟩⟩)
  | .poll f => (scene.future? f).map fun future =>
    let (_, future, machine) := future.poll scene.world.machine
    ⟨⟨machine, scene.world.log⟩, scene.held.set f ⟨future, false⟩⟩
  | .drop f => (scene.future? f).bind fun future =>
    (scene.world.starting future.drop?).map (⟨·, scene.held.set f ⟨future, true⟩⟩)

/-- What a poll of future `f` answers. -/
def answer? (scene : Scene) (f : Nat) : Option Resolution :=
  (scene.future? f).bind fun future => (future.poll scene.world.machine).1

/-- The future that is used, or made. -/
def used? (scene : Scene) : Use → Option Nat
  | .client _ => none
  | .adapt _ => some scene.held.length
  | .cancel f | .poll f | .drop f => some f

theorem future?_eq_some {scene : Scene} {f : Nat} {future : Future} :
    scene.future? f = some future ↔ scene.held[f]? = some ⟨future, false⟩ := by
  unfold future?
  cases hheld : scene.held[f]? with
  | none => simp
  | some held =>
    obtain ⟨other, dropped⟩ := held
    cases dropped <;> simp [Option.filter]

/-- What a use that is possible finds and leaves behind. -/
inductive Goes (scene : Scene) : Use → Scene → Prop
  | client {label : Label} {world : World} (permitted : scene.permits label = true)
    (taken : scene.world.step label = some world) : Goes scene (.client label) ⟨world, scene.held⟩
  | adapt {template : User} (known : scene.world.machine.Has template)
    (unowned : scene.owns template = false) :
    Goes scene (.adapt template) ⟨scene.world, scene.held ++ [⟨.of template, false⟩]⟩
  | cancel {f : Nat} {future : Future} {world : World}
    (found : scene.held[f]? = some ⟨future, false⟩)
    (taken : scene.world.starting (future.target?.map User.stopper) = some world) :
    Goes scene (.cancel f) ⟨world, scene.held.set f ⟨future.cancel.1, false⟩⟩
  | poll {f : Nat} {future : Future} (found : scene.held[f]? = some ⟨future, false⟩) :
    Goes scene (.poll f) ⟨⟨(future.poll scene.world.machine).2.2, scene.world.log⟩,
      scene.held.set f ⟨(future.poll scene.world.machine).2.1, false⟩⟩
  | drop {f : Nat} {future : Future} {world : World}
    (found : scene.held[f]? = some ⟨future, false⟩)
    (taken : scene.world.starting (future.deserts?.map User.stopper) = some world) :
    Goes scene (.drop f) ⟨world, scene.held.set f ⟨future, true⟩⟩

/-- **What a use does.** -/
theorem step_ok {scene next : Scene} {use : Use} (h : scene.step use = some next) :
    scene.Goes use next := by
  cases use with
  | client label =>
    simp only [step] at h
    split_ifs at h with hpermitted
    obtain ⟨world, hworld, rfl⟩ := Option.map_eq_some_iff.mp h
    exact .client hpermitted hworld
  | adapt template =>
    simp only [step] at h
    split_ifs at h with hguard
    cases h
    exact .adapt hguard.1 hguard.2
  | cancel f =>
    obtain ⟨future, hfuture, h⟩ := Option.bind_eq_some_iff.mp h
    obtain ⟨world, hworld, rfl⟩ := Option.map_eq_some_iff.mp h
    rw [Future.cancel_task] at hworld
    exact .cancel (future?_eq_some.mp hfuture) hworld
  | poll f =>
    obtain ⟨future, hfuture, rfl⟩ := Option.map_eq_some_iff.mp h
    exact .poll (future?_eq_some.mp hfuture)
  | drop f =>
    obtain ⟨future, hfuture, h⟩ := Option.bind_eq_some_iff.mp h
    obtain ⟨world, hworld, rfl⟩ := Option.map_eq_some_iff.mp h
    rw [Future.drop?_eq] at hworld
    exact .drop (future?_eq_some.mp hfuture) hworld

end Scene

/-! ## 2. What a use does to the client -/

/-- The order that cancels a call or batch. -/
def User.stop : User → Order
  | call id => .cancel id
  | batch id => .stop id

/-- The steps by which somebody cancels: an order, and the first step of the task. -/
def Machine.stopLabels (machine : Machine) : Option User → List Label
  | some user => [.order user.stop, .advance machine.tasks.length]
  | none => []

/-- What a poll orders: the first one a clone, and somebody to run it. -/
def Future.orders (machine : Machine) (future : Future) : List Order :=
  if future.finished ∨ future.running.isSome then []
  else
    match future.template with
    | .call id =>
      if future.flagged ∨ machine.looksCancelled (.call id) then []
      else [.cloneCall id, .execute machine.calls.length]
    | .batch id => [.poll id]

/-- The steps that a use is for the client. -/
def Scene.labels (scene : Scene) : Use → List Label
  | .client label => [label]
  | .adapt _ => []
  | .cancel f => scene.world.machine.stopLabels ((scene.future? f).bind Future.target?)
  | .poll f => ((scene.future? f).map (Future.orders scene.world.machine)).getD [] |>.map .order
  | .drop f => scene.world.machine.stopLabels ((scene.future? f).bind Future.deserts?)

section

variable {world : World} {machine : Machine} {future : Future}

/-- A cancellation of a call that has just started has tried to win. -/
theorem World.starting_call (id : Nat) : world.starting (some (User.call id).stopper) =
    world.machine.calls[id]?.map fun call => ⟨{ world.machine with
      calls := world.machine.calls.set id call.cancel.2
      tasks := world.machine.tasks ++
        [.cancelling id (if call.cancel.1 then .claimed else .done)] }, world.log⟩ := by
  have hspawned : (world.machine.spawn (.cancelling id .entry)).2.tasks[
      world.machine.tasks.length]? = some (.cancelling id .entry) := by simp [Machine.spawn]
  simp only [starting, User.stopper, step, Machine.advance, Machine.decoding?, hspawned]
  cases hfound : world.machine.calls[id]? with
  | none => simp [Machine.spawn, hfound]
  | some call =>
    rcases hcancel : call.cancel with ⟨won, call'⟩
    cases won <;> simp [Machine.spawn, hfound, CancelStage.advance, hcancel]

/-- A cancellation of a batch that has just started has raised the flag. -/
theorem World.starting_batch (id : Nat) : world.starting (some (User.batch id).stopper) =
    world.machine.batches[id]?.map fun batch => ⟨{ world.machine with
      batches := world.machine.batches.set id { batch with cancelled := true }
      tasks := world.machine.tasks ++ [.stopping id .flagged] }, world.log⟩ := by
  have hspawned : (world.machine.spawn (.stopping id .entry)).2.tasks[world.machine.tasks.length]? =
      some (.stopping id .entry) := by simp [Machine.spawn]
  simp only [starting, User.stopper, step, Machine.advance, Machine.decoding?, hspawned]
  cases hfound : world.machine.batches[id]? with
  | none => simp [Machine.spawn, hfound]
  | some batch => simp [Machine.spawn, hfound, StopStage.advance]

/-- Who cancels takes the steps of an order and of the task that it starts. -/
theorem World.after_stopLabels (user? : Option User) :
    world.after (world.machine.stopLabels user?) = world.starting (user?.map User.stopper) := by
  cases user? with
  | none => rfl
  | some user =>
    cases user with
    | call id =>
      cases hfound : world.machine.calls[id]? with
      | none =>
        rw [Option.map_some, starting_call, hfound]
        simp [Machine.stopLabels, User.stop, after, step, Machine.obey, hfound]
      | some call =>
        simp [Machine.stopLabels, User.stop, after, step, Machine.obey, hfound, starting,
          User.stopper]
    | batch id =>
      cases hfound : world.machine.batches[id]? with
      | none =>
        rw [Option.map_some, starting_batch, hfound]
        simp [Machine.stopLabels, User.stop, after, step, Machine.obey, hfound]
      | some batch =>
        simp [Machine.stopLabels, User.stop, after, step, Machine.obey, hfound, starting,
          User.stopper]

/-- **A poll does what it orders.** -/
theorem Future.Polled.after_orders {polled : Option Resolution × Future × Machine}
    (h : Polled machine future polled) (log : Log) :
    (World.mk machine log).after ((future.orders machine).map .order) =
      some ⟨polled.2.2, log⟩ := by
  cases h with
  | spent hfinished => simp [orders, hfinished, World.after]
  | pending hunfinished hrunning | resolved hunfinished hrunning =>
    simp [orders, hunfinished, hrunning, World.after]
  | withheld hunfinished hunpolled htemplate hcancelled =>
    simp [orders, hunfinished, hunpolled, htemplate, hcancelled, World.after]
  | startedCall hunfinished hunpolled htemplate hfound hunflagged huncancelled =>
    simp [orders, hunfinished, hunpolled, htemplate, hunflagged, Machine.looksCancelled, hfound,
      huncancelled, World.after, World.step, Machine.obey, Machine.addCall, Machine.spawn]
  | startedBatch hunfinished hunpolled htemplate hfound =>
    simp [orders, hunfinished, hunpolled, htemplate, hfound, World.after, World.step, Machine.obey,
      BatchFuture.poll, BatchFuture.ofBatch, Machine.addBatch, Machine.spawn]

end

namespace Scene

variable {scene next : Scene} {use : Use}

/-- Every future was made from a call or batch that there is. -/
def Known (scene : Scene) : Prop :=
  ∀ held ∈ scene.held, scene.world.machine.Has held.future.template

/-- A use is two steps at most. -/
theorem length_labels_le : (scene.labels use).length ≤ 2 := by
  have hstop : ∀ user?, (scene.world.machine.stopLabels user?).length ≤ 2 := by
    intro user?
    cases user? <;> simp [Machine.stopLabels]
  cases use with
  | client | adapt => simp [labels]
  | cancel f | drop f => exact hstop _
  | poll f =>
    cases hfuture : scene.future? f with
    | none => simp [labels, hfuture]
    | some future =>
      simp only [labels, hfuture, Option.map_some, Option.getD_some, List.length_map]
      unfold Future.orders
      split_ifs
      · simp
      · cases future.template with
        | call id =>
          dsimp only
          split_ifs <;> simp
        | batch id => simp

/-- **For the client a use is these steps.** -/
theorem after_labels (hknown : scene.Known) (h : scene.Goes use next) :
    scene.world.after (scene.labels use) = some next.world := by
  cases h with
  | client _ htaken => simp [labels, World.after, htaken]
  | adapt => rfl
  | cancel hfound htaken | drop hfound htaken =>
    rw [labels, future?_eq_some.mpr hfound, Option.bind_some, World.after_stopLabels]
    exact htaken
  | poll hfound =>
    rw [labels, future?_eq_some.mpr hfound]
    exact (Future.poll_ok (hknown _ (List.mem_of_getElem? hfound))).after_orders _

end Scene

/-! ## 3. Endless use -/

/-- Futures and their client in use without end: at each moment somebody uses them, or nobody. -/
structure Usage (config : Config) where
  scene : Nat → Scene
  use? : Nat → Option Use
  starts : scene 0 = .new config
  goes : ∀ n, match use? n with
    | some use => (scene n).step use = some (scene (n + 1))
    | none => scene (n + 1) = scene n

/-- What a use makes of future `f`. -/
inductive Held.Becomes (machine : Machine) (f : Nat) (held : Held) : Option Use → Held → Prop
  | kept {use? : Option Use} (uncancelled : use? ≠ some (.cancel f))
    (unpolled : use? ≠ some (.poll f)) : Becomes machine f held use? held
  | cancelled (undropped : held.dropped = false) :
    Becomes machine f held (some (.cancel f)) ⟨held.future.cancel.1, false⟩
  | polled (undropped : held.dropped = false) :
    Becomes machine f held (some (.poll f)) ⟨(held.future.poll machine).2.1, false⟩
  | dropped (undropped : held.dropped = false) :
    Becomes machine f held (some (.drop f)) ⟨held.future, true⟩

/-- **What there is after a use** is a future that was there before, or the one that was made. -/
theorem Scene.Goes.held {scene next : Scene} {use : Use} {f : Nat} {held' : Held}
    (h : scene.Goes use next) (hheld : next.held[f]? = some held') :
    (∃ held, scene.held[f]? = some held ∧
      held.Becomes scene.world.machine f (some use) held') ∨
    ∃ template, use = .adapt template ∧ f = scene.held.length ∧ held' = ⟨.of template, false⟩ := by
  have hset : ∀ {g : Nat} {future : Future} {new : Held},
      scene.held[g]? = some ⟨future, false⟩ →
      (g = f → Held.Becomes scene.world.machine f ⟨future, false⟩ (some use) new) →
      (g ≠ f → ∀ held : Held, Held.Becomes scene.world.machine f held (some use) held) →
      (scene.held.set g new)[f]? = some held' →
      ∃ held, scene.held[f]? = some held ∧ held.Becomes scene.world.machine f (some use) held' := by
    intro g future new hg hself hother hheld
    by_cases hgf : g = f
    · subst hgf
      rw [List.getElem?_set_self (List.getElem?_eq_some_iff.mp hg).1] at hheld
      cases hheld
      exact ⟨_, hg, hself rfl⟩
    · rw [List.getElem?_set_ne hgf] at hheld
      exact ⟨_, hheld, hother hgf _⟩
  cases h with
  | client => exact .inl ⟨_, hheld, .kept (by simp) (by simp)⟩
  | adapt =>
    rcases getElem?_of_append_singleton hheld with hold | ⟨hlast, hnew⟩
    · exact .inl ⟨_, hold, .kept (by simp) (by simp)⟩
    · exact .inr ⟨_, rfl, hlast, hnew⟩
  | cancel hfound =>
    refine .inl (hset hfound ?_ (fun hgf _ => .kept (by simpa using hgf) (by simp)) hheld)
    rintro rfl
    exact .cancelled rfl
  | poll hfound =>
    refine .inl (hset hfound ?_ (fun hgf _ => .kept (by simp) (by simpa using hgf)) hheld)
    rintro rfl
    exact .polled rfl
  | drop hfound =>
    refine .inl (hset hfound ?_ (fun hgf _ => .kept (by simp) (by simp)) hheld)
    rintro rfl
    exact .dropped rfl

/-- No future goes away. -/
theorem Scene.Goes.length_held_le {scene next : Scene} {use : Use} (h : scene.Goes use next) :
    scene.held.length ≤ next.held.length := by
  cases h with
  | client => exact Nat.le_refl _
  | adapt | cancel | poll | drop => simp

namespace Usage

variable {config : Config} {usage : Usage config} {f n m : Nat} {held : Held}

/-- From one moment to the next there is a use, or everything stays as it is. -/
theorem next (usage : Usage config) (n : Nat) :
    (usage.use? n = none ∧ usage.scene (n + 1) = usage.scene n) ∨
      ∃ use, usage.use? n = some use ∧ (usage.scene n).Goes use (usage.scene (n + 1)) := by
  have hgoes := usage.goes n
  cases huse : usage.use? n with
  | none =>
    rw [huse] at hgoes
    exact .inl ⟨rfl, hgoes⟩
  | some use =>
    rw [huse] at hgoes
    exact .inr ⟨use, rfl, Scene.step_ok hgoes⟩

theorem goes_of_use {use : Use} (huse : usage.use? n = some use) :
    (usage.scene n).Goes use (usage.scene (n + 1)) := by
  have hgoes := usage.goes n
  rw [huse] at hgoes
  exact Scene.step_ok hgoes

/-- What is left of a future at the next moment. -/
theorem held_next (hheld : (usage.scene n).held[f]? = some held) :
    ∃ held', (usage.scene (n + 1)).held[f]? = some held' ∧
      held.Becomes (usage.scene n).world.machine f (usage.use? n) held' := by
  rcases usage.next n with ⟨huse, hsame⟩ | ⟨use, huse, hstep⟩
  · exact ⟨held, hsame ▸ hheld, by rw [huse]; exact .kept (by simp) (by simp)⟩
  · have hlt := Nat.lt_of_lt_of_le (List.getElem?_eq_some_iff.mp hheld).1
      (hstep.length_held_le)
    have hnext := List.getElem?_eq_getElem hlt
    rw [huse]
    rcases hstep.held hnext with ⟨held₀, hheld₀, hbecomes⟩ | ⟨_, -, rfl, -⟩
    · cases hheld.symm.trans hheld₀
      exact ⟨_, hnext, hbecomes⟩
    · simp at hheld

/-- **What holds of a future that was just made and is kept by every use holds of every future.** -/
theorem held_induct (usage : Usage config) (f : Nat) {P : Nat → Held → Prop}
    (hmade : ∀ n template, usage.use? n = some (.adapt template) →
      (usage.scene n).held.length = f → P (n + 1) ⟨.of template, false⟩)
    (hstep : ∀ n held held', (usage.scene n).held[f]? = some held →
      (usage.scene (n + 1)).held[f]? = some held' →
      held.Becomes (usage.scene n).world.machine f (usage.use? n) held' →
      P n held → P (n + 1) held') :
    ∀ {n held}, (usage.scene n).held[f]? = some held → P n held := by
  intro n
  induction n with
  | zero =>
    intro held hheld
    rw [usage.starts] at hheld
    cases hheld
  | succ n ih =>
    intro held' hheld'
    have hknown : ∀ {held}, (usage.scene n).held[f]? = some held → P (n + 1) held' := by
      intro held hheld
      obtain ⟨held'', hheld'', hbecomes⟩ := held_next hheld
      cases hheld'.symm.trans hheld''
      exact hstep n held held' hheld hheld' hbecomes (ih hheld)
    rcases usage.next n with ⟨-, hsame⟩ | ⟨use, huse, htaken⟩
    · exact hknown (hsame ▸ hheld')
    · rcases htaken.held hheld' with ⟨held, hheld, -⟩ | ⟨template, rfl, hf, rfl⟩
      · exact hknown hheld
      · exact hmade n template huse hf.symm

/-- What holds of a future at one moment and is kept by every use holds from then on. -/
theorem held_later {P : Nat → Held → Prop} (hheld : (usage.scene n).held[f]? = some held)
    (hnow : P n held)
    (hstep : ∀ n held held', (usage.scene n).held[f]? = some held →
      (usage.scene (n + 1)).held[f]? = some held' →
      held.Becomes (usage.scene n).world.machine f (usage.use? n) held' →
      P n held → P (n + 1) held') (hnm : n ≤ m) :
    ∃ held', (usage.scene m).held[f]? = some held' ∧ P m held' := by
  induction hnm with
  | refl => exact ⟨held, hheld, hnow⟩
  | step _ ih =>
    obtain ⟨held₁, hheld₁, hP⟩ := ih
    obtain ⟨held₂, hheld₂, hbecomes⟩ := held_next hheld₁
    exact ⟨held₂, hheld₂, hstep _ _ _ hheld₁ hheld₂ hbecomes hP⟩

end Usage

end RemoteCall.Client
