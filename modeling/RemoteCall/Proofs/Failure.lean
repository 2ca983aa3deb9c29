/-
# With which errors a chain of operations fails

`Fails p` says of an operation on a state that each of its failures is one of `p`.  The rules follow
the ways to build such operations; a chain fails with what its parts fail with.
-/
import RemoteCall.Error

namespace RemoteCall

variable {ε σ α β : Type} {p q : ε → Prop}

/-- Every failure of the operation is one of `p`. -/
def Fails (p : ε → Prop) (x : EStateM ε σ α) : Prop := ∀ s e t, x s = .error e t → p e

namespace Fails

theorem mono {x : EStateM ε σ α} (h : Fails p x) (hpq : ∀ e, p e → q e) : Fails q x :=
  fun s e t hx => hpq e (h s e t hx)

theorem pure (a : α) : Fails p (Pure.pure a : EStateM ε σ α) := by
  intro s e t h
  cases h

theorem throw {e : ε} (h : p e) : Fails p (throw e : EStateM ε σ α) := by
  intro s e' t hx
  cases hx
  exact h

theorem get : Fails p (get : EStateM ε σ σ) := by
  intro s e t h
  cases h

theorem set (r : σ) : Fails p (set r : EStateM ε σ PUnit) := by
  intro s e t h
  cases h

theorem modify (f : σ → σ) : Fails p (modify f : EStateM ε σ PUnit) := by
  intro s e t h
  cases h

/-- A chain fails with what its parts fail with. -/
theorem bind {x : EStateM ε σ α} {f : α → EStateM ε σ β} (hx : Fails p x)
    (hf : ∀ a, Fails p (f a)) : Fails p (x >>= f) := by
  intro s e t h
  change EStateM.bind x f s = .error e t at h
  unfold EStateM.bind at h
  cases hresult : x s with
  | ok a u =>
    rw [hresult] at h
    exact hf a u e t h
  | error e' u =>
    rw [hresult] at h
    cases h
    exact hx s e t hresult

theorem map {x : EStateM ε σ α} (h : Fails p x) (f : α → β) : Fails p (f <$> x) := by
  intro s e t hx
  change EStateM.map f x s = .error e t at hx
  unfold EStateM.map at hx
  cases hresult : x s with
  | ok a u =>
    rw [hresult] at hx
    cases hx
  | error e' u =>
    rw [hresult] at hx
    cases hx
    exact h s e t hresult

theorem discard {x : EStateM ε σ α} (h : Fails p x) : Fails p (discard x) := h.map _

theorem ite {c : Prop} [Decidable c] {x y : EStateM ε σ α} (hx : Fails p x) (hy : Fails p y) :
    Fails p (if c then x else y) := by
  split
  · exact hx
  · exact hy

end Fails

/-- **A chain fails where one of its parts does**: the first, or what follows it after a success. -/
theorem bind_error {x : EStateM ε σ α} {f : α → EStateM ε σ β} {e : ε} {s t : σ} :
    (x >>= f) s = .error e t ↔ x s = .error e t ∨ ∃ a u, x s = .ok a u ∧ f a u = .error e t := by
  show EStateM.bind x f s = .error e t ↔ _
  unfold EStateM.bind
  cases x s with
  | ok a u =>
    refine ⟨fun h => .inr ⟨a, u, rfl, h⟩, ?_⟩
    rintro (h | ⟨_, _, h, hf⟩)
    · cases h
    · cases h
      exact hf
  | error e' u => simp

end RemoteCall
