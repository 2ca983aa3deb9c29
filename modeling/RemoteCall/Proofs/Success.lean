/-
# When a chain of operations succeeds

Readers and writers are operations on a state that succeed or fail.  The lemmas here say, for each
way to build such an operation, exactly when it succeeds and in which state it leaves off.  As
rewriting rules they turn a success of a whole operation into the successes of its parts, in
either direction, so no later proof opens the state-passing itself.
-/
import RemoteCall.Error

namespace RemoteCall.Success

variable {ε σ α β : Type}

@[simp] theorem pure_ok {a b : α} {s t : σ} :
    (pure a : EStateM ε σ α) s = .ok b t ↔ b = a ∧ t = s := by
  show EStateM.Result.ok a s = .ok b t ↔ _
  rw [EStateM.Result.ok.injEq, eq_comm, @eq_comm _ s]

/-- **A chain succeeds exactly if its parts do**, one after the other. -/
@[simp] theorem bind_ok {x : EStateM ε σ α} {f : α → EStateM ε σ β} {b : β} {s t : σ} :
    (x >>= f) s = .ok b t ↔ ∃ a u, x s = .ok a u ∧ f a u = .ok b t := by
  show EStateM.bind x f s = .ok b t ↔ _
  unfold EStateM.bind
  constructor
  · intro h
    cases hx : x s with
    | ok a u =>
      rw [hx] at h
      exact ⟨a, u, rfl, h⟩
    | error e u =>
      rw [hx] at h
      cases h
  · rintro ⟨a, u, hx, hf⟩
    rw [hx]
    exact hf

/-- A chain goes on from where its first part has left off. -/
theorem bind_of_ok {x : EStateM ε σ α} {f : α → EStateM ε σ β} {a : α} {s t : σ}
    (h : x s = .ok a t) : (x >>= f) s = f a t := by
  show EStateM.bind x f s = f a t
  unfold EStateM.bind
  rw [h]

/-- Chains that begin alike come to the same if they go on alike after a success. -/
theorem bind_congr_of_ok {x y : EStateM ε σ α} {f g : α → EStateM ε σ β} {s : σ} (h : x s = y s)
    (hnext : ∀ a t, x s = .ok a t → f a t = g a t) : (x >>= f) s = (y >>= g) s := by
  show EStateM.bind x f s = EStateM.bind y g s
  unfold EStateM.bind
  rw [← h]
  cases hx : x s with
  | ok a t => exact hnext a t hx
  | error e t => rfl

@[simp] theorem map_ok {x : EStateM ε σ α} {f : α → β} {b : β} {s t : σ} :
    (f <$> x) s = .ok b t ↔ ∃ a, x s = .ok a t ∧ b = f a := by
  show EStateM.map f x s = .ok b t ↔ _
  unfold EStateM.map
  cases x s with
  | error e u => simp
  | ok a u =>
    simp only [EStateM.Result.ok.injEq]
    constructor
    · rintro ⟨rfl, rfl⟩
      exact ⟨a, ⟨rfl, rfl⟩, rfl⟩
    · rintro ⟨a, ⟨rfl, rfl⟩, rfl⟩
      exact ⟨rfl, rfl⟩

@[simp] theorem discard_ok {x : EStateM ε σ α} {u : PUnit} {s t : σ} :
    (discard x) s = .ok u t ↔ ∃ a, x s = .ok a t := by
  show (Function.const α PUnit.unit <$> x) s = .ok u t ↔ _
  simp

theorem discard_bind {x : EStateM ε σ α} {f : PUnit → EStateM ε σ β} :
    (discard x >>= f) = x >>= fun _ => f ⟨⟩ := by
  show (Function.const α PUnit.unit <$> x) >>= f = _
  rw [bind_map_left]

@[simp] theorem get_bind {f : σ → EStateM ε σ β} {s : σ} : (get >>= f) s = f s s := rfl

@[simp] theorem set_bind {r : σ} {f : PUnit → EStateM ε σ β} {s : σ} :
    (set r >>= f) s = f ⟨⟩ r := rfl

@[simp] theorem modify_bind {g : σ → σ} {f : PUnit → EStateM ε σ β} {s : σ} :
    (modify g >>= f) s = f ⟨⟩ (g s) := rfl

@[simp] theorem modify_ok {f : σ → σ} {u : PUnit} {s t : σ} :
    (modify f : EStateM ε σ PUnit) s = .ok u t ↔ t = f s := by
  show EStateM.Result.ok PUnit.unit (f s) = .ok u t ↔ _
  rw [EStateM.Result.ok.injEq, eq_comm (a := f s)]
  exact and_iff_right rfl

@[simp] theorem throw_ok {e : ε} {a : α} {s t : σ} :
    (throw e : EStateM ε σ α) s = .ok a t ↔ False := by
  show EStateM.Result.error e s = .ok a t ↔ False
  simp

@[simp] theorem ite_ok {p : Prop} [Decidable p] {x y : EStateM ε σ α} {a : α} {s t : σ} :
    (if p then x else y) s = .ok a t ↔ if p then x s = .ok a t else y s = .ok a t := by
  split <;> rfl

theorem except_bind_ok {x : Except ε α} {f : α → Except ε β} {b : β} :
    (x >>= f) = .ok b ↔ ∃ a, x = .ok a ∧ f a = .ok b := by
  cases x with
  | error e =>
    constructor
    · intro h
      cases h
    · rintro ⟨_, h, -⟩
      cases h
  | ok a =>
    constructor
    · intro h
      exact ⟨a, rfl, h⟩
    · rintro ⟨_, h, hf⟩
      cases h
      exact hf

end RemoteCall.Success
