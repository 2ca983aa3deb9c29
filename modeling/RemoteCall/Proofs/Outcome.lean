/-
# What comes of a chain of operations

An operation that fails leaves a state behind, and where it stopped shows there.  Whoever only asks
for its answer does not see that state: `outcome` is the answer with the state after a success, or
the error alone.  Whoever goes on after a failure sees the state and not the answer: `effect` is the
state left behind in either case, with the error if there was one.  Both compose as the operations
do, and so does what an operation keeps of the state, successful or not (`Keeps`).
-/
import RemoteCall.Proofs.Success

namespace RemoteCall

open Success

variable {ε σ α β γ δ : Type}

/-! ## 1. Answers -/

/-- The answer and the state after a success, the error of a failure. -/
def outcome (x : EStateM ε σ α) (s : σ) : Except ε (α × σ) :=
  match x s with
  | .ok a t => .ok (a, t)
  | .error e _ => .error e

theorem outcome_of_ok {x : EStateM ε σ α} {a : α} {s t : σ} (h : x s = .ok a t) :
    outcome x s = .ok (a, t) := by
  rw [outcome, h]

theorem outcome_eq_ok_iff {x : EStateM ε σ α} {a : α} {s t : σ} :
    outcome x s = .ok (a, t) ↔ x s = .ok a t := by
  unfold outcome
  cases x s <;> simp

@[simp] theorem outcome_throw {e : ε} {s : σ} :
    outcome (throw e : EStateM ε σ α) s = .error e := rfl

/-- **A chain comes to what its parts come to**, one after the other. -/
theorem outcome_bind {x : EStateM ε σ α} {f : α → EStateM ε σ β} {s : σ} :
    outcome (x >>= f) s = outcome x s >>= fun result => outcome (f result.1) result.2 := by
  show outcome (EStateM.bind x f) s = _
  unfold outcome EStateM.bind
  cases x s <;> rfl

theorem outcome_bind_of_ok {x : EStateM ε σ α} {f : α → EStateM ε σ β} {a : α} {s t : σ}
    (h : x s = .ok a t) : outcome (x >>= f) s = outcome (f a) t := by
  rw [outcome_bind, outcome_of_ok h]
  rfl

/-! ## 2. Effects -/

/-- The state left behind, and the error of a failure. -/
def effect (x : EStateM ε σ α) (s : σ) : Option ε × σ :=
  match x s with
  | .ok _ t => (none, t)
  | .error e t => (some e, t)

theorem effect_eq_none_iff {x : EStateM ε σ α} {s t : σ} :
    effect x s = (none, t) ↔ ∃ a, x s = .ok a t := by
  unfold effect
  cases x s <;> simp

theorem effect_eq_some_iff {x : EStateM ε σ α} {e : ε} {s t : σ} :
    effect x s = (some e, t) ↔ x s = .error e t := by
  unfold effect
  cases x s <;> simp

theorem effect_bind_of_ok {x : EStateM ε σ α} {f : α → EStateM ε σ β} {a : α} {s t : σ}
    (h : x s = .ok a t) : effect (x >>= f) s = effect (f a) t := by
  unfold effect
  rw [bind_of_ok h]

theorem effect_get_bind {f : σ → EStateM ε σ α} {s : σ} : effect (get >>= f) s = effect (f s) s :=
  rfl

/-- A chain stops where its first part fails. -/
theorem effect_bind_of_error {x : EStateM ε σ α} {f : α → EStateM ε σ β} {e : ε} {s t : σ}
    (h : x s = .error e t) : effect (x >>= f) s = (some e, t) := by
  show effect (EStateM.bind x f) s = _
  unfold effect EStateM.bind
  rw [h]

/-- **Chains have the same effect if their parts have**, one after the other. -/
theorem effect_bind_congr {x : EStateM ε σ α} {y : EStateM ε σ β} {f : α → EStateM ε σ γ}
    {g : β → EStateM ε σ δ} {s : σ} (h : effect x s = effect y s)
    (hnext : ∀ a b t, x s = .ok a t → y s = .ok b t → effect (f a) t = effect (g b) t) :
    effect (x >>= f) s = effect (y >>= g) s := by
  cases hx : x s with
  | ok a t =>
    obtain ⟨b, hy⟩ := effect_eq_none_iff.mp (h.symm.trans (effect_eq_none_iff.mpr ⟨a, hx⟩))
    rw [effect_bind_of_ok hx, effect_bind_of_ok hy]
    exact hnext a b t hx hy
  | error e t =>
    have hy := effect_eq_some_iff.mp (h.symm.trans (effect_eq_some_iff.mpr hx))
    rw [effect_bind_of_error hx, effect_bind_of_error hy]

/-- Chains that begin alike have the same effect if they go on with the same effect. -/
theorem effect_bind_right {x : EStateM ε σ α} {f : α → EStateM ε σ β} {g : α → EStateM ε σ γ}
    {s : σ} (hnext : ∀ a t, x s = .ok a t → effect (f a) t = effect (g a) t) :
    effect (x >>= f) s = effect (x >>= g) s :=
  effect_bind_congr rfl fun a b t ha hb => by
    cases ha.symm.trans hb
    exact hnext a t ha

/-- Changing the answer has no effect. -/
theorem effect_bind_pure {x : EStateM ε σ α} (k : α → β) (s : σ) :
    effect (x >>= fun a => pure (k a)) s = effect x s := by
  cases hx : x s with
  | ok a t => exact (effect_bind_of_ok hx).trans (effect_eq_none_iff.mpr ⟨a, hx⟩).symm
  | error e t => exact (effect_bind_of_error hx).trans (effect_eq_some_iff.mpr hx).symm

theorem effect_discard {x : EStateM ε σ α} (s : σ) : effect (discard x) s = effect x s :=
  effect_bind_pure (Function.const α PUnit.unit) s

/-! ## 3. What a chain keeps -/

/-- The operation keeps `p` of the state, also where it fails. -/
def Keeps (p : σ → Prop) (x : EStateM ε σ α) : Prop := ∀ s, p s → p (effect x s).2

namespace Keeps

variable {p : σ → Prop}

theorem pure (a : α) : Keeps p (Pure.pure a : EStateM ε σ α) := fun _ h => h

theorem throw (e : ε) : Keeps p (throw e : EStateM ε σ α) := fun _ h => h

theorem modify {f : σ → σ} (h : ∀ s, p s → p (f s)) :
    Keeps p (modify f : EStateM ε σ PUnit) := h

/-- What is done with the state may depend on it. -/
theorem get_bind {f : σ → EStateM ε σ α} (h : ∀ s, p s → p (effect (f s) s).2) :
    Keeps p (get >>= f) := h

/-- **A chain keeps what its parts keep**; the later part may rely on the success of the first. -/
theorem bind_of_ok {x : EStateM ε σ α} {f : α → EStateM ε σ β} (hx : Keeps p x)
    (hf : ∀ s a t, p s → x s = .ok a t → p (effect (f a) t).2) : Keeps p (x >>= f) := by
  intro s h
  have hkept := hx s h
  cases hresult : x s with
  | ok a t =>
    rw [effect_bind_of_ok hresult]
    exact hf s a t h hresult
  | error e t =>
    rw [effect_bind_of_error hresult]
    rwa [effect_eq_some_iff.mpr hresult] at hkept

theorem of_ok {x : EStateM ε σ α} {a : α} {s t : σ} (h : Keeps p x) (hs : p s)
    (hx : x s = .ok a t) : p t := by
  have hkept := h s hs
  rwa [effect_eq_none_iff.mpr ⟨a, hx⟩] at hkept

theorem bind {x : EStateM ε σ α} {f : α → EStateM ε σ β} (hx : Keeps p x)
    (hf : ∀ a, Keeps p (f a)) : Keeps p (x >>= f) :=
  hx.bind_of_ok fun _ a t hs h => hf a t (hx.of_ok hs h)

theorem discard {x : EStateM ε σ α} (h : Keeps p x) : Keeps p (discard x) := by
  intro s hs
  rw [effect_discard]
  exact h s hs

theorem ite {c : Prop} [Decidable c] {x y : EStateM ε σ α} (hx : Keeps p x) (hy : Keeps p y) :
    Keeps p (if c then x else y) := by
  split
  · exact hx
  · exact hy

end Keeps

end RemoteCall
