/-
# Looking ahead twice

A caller that looks ahead and fails still holds the reader, and may look again.  This module says
what every failure of `peek` leaves behind, and what the second look then gives.

The tag is judged before it is taken.  A stream that ends inside a scope, an unknown tag and a tag
that cannot stand in the scope leave the reader where it was, so they are reported for ever
(`nextTag_error`).  The name of an entry is read after its tag has been taken.  When it is cut off
or is no text, the reader has moved on and remembers nothing of the tag (`takeName_error`): the next
look starts in the middle of the header.  The error tells which of the two it is
(`Error.cutsHeader`), and so whether the second look gives the same as the first (`peek_twice`).
-/
import RemoteCall.Proofs.Failure
import RemoteCall.Proofs.Wire.Reading

namespace RemoteCall

open Wire Success

/-- The errors of a name that stands behind a tag and cannot be read. -/
def Error.cutsHeader : Error → Bool
  | .stream (.truncated _ _ _) | .stream (.nameNotUtf8 _) => true
  | _ => false

namespace Wire.Reader

variable {α : Type} {token : Token} {before after : Reader} {error : Error}

/-! ## 1. Looking ahead after a success -/

/-- The token of a successful look is there for whoever looks next. -/
theorem peeked_of_peek (h : peek before = .ok token after) : after.peeked = some token := by
  unfold peek at h
  rw [get_bind] at h
  cases hpeeked : before.peeked with
  | some found =>
    rw [hpeeked] at h
    obtain ⟨rfl, rfl⟩ := pure_ok.mp h
    exact hpeeked
  | none =>
    simp only [hpeeked, bind_ok, modify_bind, pure_ok] at h
    obtain ⟨_, _, -, _, _, -, rfl, rfl⟩ := h
    rfl

theorem peek_of_some (h : before.peeked = some token) : peek before = .ok token before := by
  unfold peek
  rw [get_bind, h]
  rfl

/-- **Looking again after a success** gives the same token and changes nothing. -/
theorem peek_of_peek (h : peek before = .ok token after) : peek after = .ok token after :=
  peek_of_some (peeked_of_peek h)

/-! ## 2. Looking ahead after a failure -/

theorem fail_error {fault : StreamFault} :
    (fail fault : Read α) before = .error error after ↔ error = .stream fault ∧ after = before := by
  show EStateM.Result.error _ _ = EStateM.Result.error _ _ ↔ _
  rw [EStateM.Result.error.injEq, eq_comm, @eq_comm _ before]

/-- Bytes that are not there leave the reader where it is. -/
theorem take_error {count : Nat} :
    take count before = .error error after ↔
      error = .stream (.truncated count before.position before.rest.length) ∧ after = before ∧
        before.rest.length < count := by
  unfold take
  simp only [List.splitAt_eq, List.length_take]
  split
  · rename_i hlen
    simp only [reduceCtorEq, false_iff, not_and]
    omega
  · rename_i hlen
    rw [EStateM.Result.error.injEq, eq_comm, @eq_comm _ before]
    refine and_congr_right fun _ => (and_iff_left ?_).symm
    omega

/-- The reader has moved on, at most, and looked at nothing. -/
def Moved (before after : Reader) : Prop :=
  ∃ rest position, before.position ≤ position ∧
    after = { before with rest := rest, position := position }

theorem moved_take {count : Nat} {head : Bytes} (h : take count before = .ok head after) :
    Moved before after := by
  obtain ⟨rest, -, -, rfl⟩ := take_ok.mp h
  exact ⟨rest, before.position + count, Nat.le_add_right _ _, rfl⟩

/-- A text that cannot be read is cut off, or its bytes are none of a text. -/
theorem takeText_error {width : Nat} {fault : Utf8.Fault → StreamFault}
    (h : takeText width fault before = .error error after) :
    Moved before after ∧ ((∃ count position available,
        error = .stream (.truncated count position available)) ∨
      ∃ place, error = .stream (fault place)) := by
  unfold takeText at h
  rcases bind_error.mp h with h | ⟨size, sized, hsize, h⟩
  · obtain ⟨rfl, rfl, -⟩ := take_error.mp h
    exact ⟨⟨after.rest, after.position, Nat.le_refl _, rfl⟩, .inl ⟨_, _, _, rfl⟩⟩
  · have hmoved := moved_take hsize
    rcases bind_error.mp h with h | ⟨raw, taken, hraw, h⟩
    · obtain ⟨rfl, rfl, -⟩ := take_error.mp h
      exact ⟨hmoved, .inl ⟨_, _, _, rfl⟩⟩
    · obtain ⟨rest, position, hle, rfl⟩ := hmoved
      obtain ⟨rest', position', hle', rfl⟩ := moved_take hraw
      cases hdecode : Utf8.decode raw with
      | ok text =>
        rw [hdecode] at h
        cases h
      | error place =>
        rw [hdecode] at h
        obtain ⟨rfl, rfl⟩ := fail_error.mp h
        exact ⟨⟨rest', position', Nat.le_trans hle hle', rfl⟩, .inr ⟨place, rfl⟩⟩

theorem cutsHeader_misplacement {scope : Option Scope} {position : Nat} {fault : StreamFault}
    (h : misplacement scope token position = some fault) :
    (Error.stream fault).cutsHeader = false := by
  unfold misplacement at h
  split at h <;> cases h <;> rfl

/-- The tag is judged before it is taken. -/
theorem nextTag_error (h : nextTag before = .error error after) :
    error.cutsHeader = false ∧ after = before := by
  obtain ⟨bytes, position, scopes, peeked, fieldName⟩ := before
  unfold nextTag at h
  rw [get_bind] at h
  cases bytes with
  | nil =>
    cases scopes with
    | nil => cases h
    | cons scope scopes =>
      obtain ⟨rfl, rfl⟩ := fail_error.mp h
      exact ⟨rfl, rfl⟩
  | cons tag rest =>
    cases htag : Token.ofTag? tag with
    | none =>
      simp only [htag] at h
      obtain ⟨rfl, rfl⟩ := fail_error.mp h
      exact ⟨rfl, rfl⟩
    | some token =>
      simp only [htag, scope?_mk] at h
      cases hplace : misplacement scopes.head? token position with
      | none =>
        rw [hplace] at h
        cases h
      | some fault =>
        rw [hplace] at h
        obtain ⟨rfl, rfl⟩ := fail_error.mp h
        exact ⟨cutsHeader_misplacement hplace, rfl⟩

/-- A name is judged after the tag has been taken. -/
theorem takeName_error (h : takeName token before = .error error after) :
    error.cutsHeader = true ∧ Moved before after := by
  unfold takeName at h
  rw [get_bind] at h
  split at h
  · rcases bind_error.mp h with h | ⟨_, _, -, h⟩
    · obtain ⟨hmoved, ⟨_, _, _, rfl⟩ | ⟨_, rfl⟩⟩ := takeText_error h
      · exact ⟨rfl, hmoved⟩
      · exact ⟨rfl, hmoved⟩
    · cases h
  · cases h

/-- **What a failed look leaves.**  Either the reader is as it was, or the tag has been taken and
forgotten and the reader stands behind it. -/
theorem peek_error (h : peek before = .error error after) :
    before.peeked = none ∧
      (error.cutsHeader = false ∧ after = before ∨
        error.cutsHeader = true ∧ ∃ rest position, before.position < position ∧
          after = { before with rest := rest, position := position }) := by
  obtain ⟨bytes, position, scopes, peeked, fieldName⟩ := before
  unfold peek at h
  rw [get_bind] at h
  cases peeked with
  | some found => cases h
  | none =>
    refine ⟨rfl, ?_⟩
    rcases bind_error.mp h with h | ⟨found, tagged, htag, h⟩
    · exact .inl (nextTag_error h)
    · rcases bind_error.mp h with h | ⟨_, _, -, h⟩
      · obtain ⟨hcuts, rest, position, hle, rfl⟩ := takeName_error h
        rcases nextTag_ok.mp htag with ⟨_, -, -, rfl⟩ | ⟨-, hscopes, -, rfl⟩
        · exact .inr ⟨hcuts, rest, position, hle, rfl⟩
        · -- at top level there is no name to be read
          unfold takeName at h
          rw [get_bind, if_neg fun hname => by simp [hscopes] at hname] at h
          cases h
      · cases h

/-- **Looking ahead twice.**  After a success the second look gives the same token and changes
nothing.  After a failure it gives the same error and changes nothing, unless the name of an entry
could not be read. -/
theorem peek_twice (before : Reader) :
    (∀ token after, peek before = .ok token after → peek after = .ok token after) ∧
      ∀ error after, peek before = .error error after →
        (peek after = .error error after ↔ error.cutsHeader = false) := by
  refine ⟨fun token after h => peek_of_peek h, fun error after h => ?_⟩
  obtain ⟨-, ⟨hcuts, rfl⟩ | ⟨hcuts, rest, position, hlt, rfl⟩⟩ := peek_error h
  · exact iff_of_true h hcuts
  · refine iff_of_false (fun hagain => ?_) (by simp [hcuts])
    -- the second look would have to move on as well
    obtain ⟨-, ⟨hsafe, -⟩ | ⟨-, rest', position', hlt', hsame⟩⟩ := peek_error hagain
    · rw [hcuts] at hsafe
      cases hsafe
    · have hposition : position = position' := congrArg (·.position) hsame
      exact Nat.lt_irrefl _ (hposition ▸ hlt')

/-- Inside an object, an unknown tag is reported for ever, and the tag of a number is seen for
ever. -/
theorem peek_twice_kept :
    ∃ number unknown seen : Reader,
      (peek number = .ok .number seen ∧ peek seen = .ok .number seen) ∧
        peek unknown = .error (.stream (.unknownTag 9 1)) unknown ∧
        (peek unknown = .error (.stream (.unknownTag 9 1)) unknown ↔
          (Error.stream (.unknownTag 9 1)).cutsHeader = false) := by
  let number : Reader := ⟨[1, 0, 1, 0x61, 7], 1, [.object], none, none⟩
  let unknown : Reader := ⟨[9, 7], 1, [.object], none, none⟩
  have hseen : peek number = .ok .number ⟨[7], 5, [.object], some .number, some "a"⟩ := rfl
  have hunknown : peek unknown = .error (.stream (.unknownTag 9 1)) unknown := rfl
  exact ⟨number, unknown, _, ⟨hseen, (peek_twice number).1 _ _ hseen⟩, hunknown,
    (peek_twice unknown).2 _ _ hunknown⟩

/-- The name of a boolean claims 256 bytes where one is left, the end of the object.  The first look
reports it.  The second, which starts in the middle of the header, sees the end of the object. -/
theorem peek_twice_cut :
    ∃ object cut ended, beginObject (ofBytes [6, 3, 1, 0, 7]) = .ok () object ∧
      peek object = .error (.stream (.truncated 256 4 1)) cut ∧ peek cut = .ok .endObject ended :=
  ⟨_, _, _, rfl, rfl, rfl⟩

end Wire.Reader

end RemoteCall
