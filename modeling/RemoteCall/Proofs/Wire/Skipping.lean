/-
# Skipping recognizes every value

A value of no interest is skipped whatever its kind.  This module shows that skipping accepts
exactly the values that fit the nesting limit, as reading them would.
-/
import RemoteCall.Proofs.Wire.Recognizer

namespace RemoteCall.Wire.Reader

open Success

variable {α : Type} {bytes : Bytes} {position : Nat} {scopes : List Scope} {peeked : Option Token}

/-- A name that has been taken is forgotten already. -/
theorem dropName_of_taken :
    dropName ⟨bytes, position, scopes, peeked, none⟩ =
      .ok () ⟨bytes, position, scopes, peeked, none⟩ := by
  unfold dropName
  rw [get_bind, scope?_mk]
  split <;> rfl

theorem Recognizes.discard {read : Read α} {interpret : Tree → Option α}
    (h : Recognizes read scopes interpret) :
    Recognizes (discard read) scopes (fun tree => (interpret tree).map fun _ => ()) := by
  intro bytes position token u after
  rw [discard_ok]
  constructor
  · rintro ⟨a, hread⟩
    obtain ⟨tree, rest, htoken, hdepth, ha, hbytes, hafter⟩ := (h _ _ _ _ _).mp hread
    exact ⟨tree, rest, htoken, hdepth, Option.map_eq_some_iff.mpr ⟨a, ha, rfl⟩, hbytes, hafter⟩
  · rintro ⟨tree, rest, htoken, hdepth, hu, hbytes, hafter⟩
    obtain ⟨a, ha, -⟩ := Option.map_eq_some_iff.mp hu
    exact ⟨a, (h _ _ _ _ _).mpr ⟨tree, rest, htoken, hdepth, ha, hbytes, hafter⟩⟩

/-- **Skipping recognizes every value.**  The induction is on the budget. -/
theorem recognizes_skipWithin : ∀ {budget : Nat} {scopes : List Scope}, room scopes < budget →
    Recognizes (skipWithin budget) scopes (fun _ => some ())
  | 0, _, h => absurd h (Nat.not_lt_zero _)
  | budget + 1, scopes, h => by
    have inside : ∀ scope, scopes.length < maxDepth →
        Recognizes (skipWithin budget) (scope :: scopes) (fun _ => some ()) := by
      intro scope hroom
      exact recognizes_skipWithin (room_cons_lt hroom h)
    have number : Recognizes _ scopes _ := recognizes_number.discard
    have string : Recognizes _ scopes _ := recognizes_string.discard
    have boolean : Recognizes _ scopes _ := recognizes_boolean.discard
    have array := recognizes_array (fun _ => ()) () fun hroom _ => inside .array hroom
    have object := recognizes_object (fun _ => ()) () fun hroom _ _ => inside .object hroom
    simp only [bind_pure_unit] at array object
    intro bytes position token u after
    unfold skipWithin
    rw [bind_of_ok (peek_of_peeked.mpr ⟨rfl, rfl⟩), bind_of_ok dropName_of_taken]
    cases token
    case number => exact number.at fun tree htoken => by cases tree <;> cases htoken; rfl
    case string => exact string.at fun tree htoken => by cases tree <;> cases htoken; rfl
    case boolean => exact boolean.at fun tree htoken => by cases tree <;> cases htoken; rfl
    case beginArray =>
      refine array.at fun tree htoken => ?_
      cases tree <;> cases htoken
      exact congrArg (Option.map _) List.foldlM_pure
    case beginObject =>
      have hentry : (fun _ : Unit => discard nextName >>= fun _ => skipWithin budget) =
          fun _ => nextName >>= fun _ => skipWithin budget :=
        funext fun _ => discard_bind
      rw [hentry]
      refine object.at fun tree htoken => ?_
      cases tree <;> cases htoken
      exact congrArg (Option.map _) List.foldlM_pure
    all_goals exact not_recognized rfl fun _ _ h => by cases h

theorem recognizes_skip : Recognizes skip scopes (fun _ => some ()) :=
  recognizes_skipWithin (Nat.lt_succ_of_le (room_le scopes))

end RemoteCall.Wire.Reader
