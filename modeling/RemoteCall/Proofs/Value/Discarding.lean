/-
# Skipping a value is reading it and throwing it away

A value of no interest is skipped by a recursion of its own, which builds nothing.  This module
shows that nobody can tell: from any state in which a value may be read, on any bytes, skipping and
generic reading have the same effect (`effect_skipWithin`).  Both succeed and leave the same reader,
or both fail with the same error and leave the same reader behind, wherever in the value that is.

What both accept is settled by the grammar (`recognizes_skipWithin`), but a failure is not a matter
of the grammar alone: it shows where the operation stopped.  So the two recursions are compared step
by step.  A loop has the same effect as another if their steps have (`effect_foldNext`); what the
recognizers add is that a step that succeeds leaves the reader in front of the next value.
-/
import RemoteCall.Proofs.Outcome
import RemoteCall.Proofs.Value.Grammar
import RemoteCall.Proofs.Wire.Skipping

namespace RemoteCall

open Wire Success

namespace Wire.Reader

variable {α β γ ε : Type} {bytes : Bytes} {position : Nat} {scopes : List Scope} {token : Token}
  {fieldName : Option String} {after : Reader}

/-! ## 1. Where a value may be read -/

/-- A value may be read from here: inside an object, the entry has been looked at and its name has
been taken. -/
def AtValue (reader : Reader) : Prop :=
  reader.scope? = some .object → reader.peeked.isSome = true ∧ reader.fieldName = none

/-- What looking ahead leaves: the token, the scopes, and no new name outside of an object. -/
theorem peek_leaves {before : Reader} (h : peek before = .ok token after) :
    after.peeked = some token ∧ after.scopes = before.scopes ∧
      (before.peeked.isSome = true → after = before) ∧
      (before.scope? ≠ some .object → after.fieldName = before.fieldName) := by
  obtain ⟨bytes, position, scopes, peeked, fieldName⟩ := before
  cases peeked with
  | some found =>
    obtain ⟨rfl, rfl⟩ := peek_of_peeked.mp h
    exact ⟨rfl, rfl, fun _ => rfl, fun _ => rfl⟩
  | none =>
    unfold peek at h
    simp only [get_bind, bind_ok, modify_bind, pure_ok] at h
    obtain ⟨found, tagged, htag, _, named, hname, rfl, rfl⟩ := h
    obtain ⟨rest, position', rfl⟩ : ∃ rest position',
        tagged = ⟨rest, position', scopes, none, fieldName⟩ := by
      rcases nextTag_ok.mp htag with ⟨rest, -, -, rfl⟩ | ⟨-, -, -, rfl⟩ <;> exact ⟨_, _, rfl⟩
    have hname := takeName_ok.mp hname
    by_cases hobject : scopes.head? = some .object ∧ token.startsValue = true
    · rw [if_pos hobject] at hname
      obtain ⟨name, rest, -, rfl⟩ := hname
      exact ⟨rfl, rfl, by simp, fun h => absurd hobject.1 h⟩
    · rw [if_neg hobject] at hname
      subst hname
      exact ⟨rfl, rfl, by simp, fun _ => rfl⟩

/-- Taking the name of an entry leads to its value. -/
theorem atValue_of_nextName {before : Reader} {name : String}
    (h : nextName before = .ok name after) : AtValue after := by
  unfold nextName at h
  rw [get_bind] at h
  split at h
  · obtain ⟨token, ⟨bytes, position, scopes, peeked, fieldName⟩, hpeek, h⟩ := bind_ok.mp h
    obtain rfl : peeked = some token := (peek_leaves hpeek).1
    cases fieldName with
    | none => exact (throw_ok.mp h).elim
    | some found =>
      obtain ⟨-, rfl⟩ := pure_ok.mp h
      exact fun _ => ⟨rfl, rfl⟩
  · exact (fail_ok.mp h).elim

/-- Where a value may be read no name is left to be dropped. -/
theorem dropName_peeked {before seen : Reader} (hplace : AtValue before)
    (h : peek before = .ok token seen) : dropName seen = .ok () seen := by
  obtain ⟨-, hscopes, hsame, -⟩ := peek_leaves h
  unfold dropName
  rw [get_bind]
  split
  · rename_i hobject
    have hscope : before.scope? = some .object := by
      rw [scope?, ← hscopes]
      exact hobject
    obtain ⟨hpeeked, hname⟩ := hplace hscope
    obtain rfl := hsame hpeeked
    obtain ⟨bytes, position, scopes, peeked, fieldName⟩ := seen
    obtain rfl : fieldName = none := hname
    rfl
  · rfl

/-- A scope opens only where no name is left to be taken, and then a loop may begin. -/
theorem opens_leaves {opening : Token} {expected : Expectation} {scope : Scope} {u : Unit}
    (h : (do consume opening expected; push scope)
      ⟨bytes, position, scopes, some token, fieldName⟩ = .ok u after) :
    scopes.length < maxDepth ∧ after = ⟨bytes, position, scope :: scopes, none, none⟩ := by
  cases fieldName with
  | none => exact (opens_ok.mp h).2
  | some name =>
    obtain ⟨_, mid, hconsume, -⟩ := bind_ok.mp h
    unfold consume at hconsume
    rw [bind_of_ok (peek_of_peeked.mpr ⟨rfl, rfl⟩)] at hconsume
    split at hconsume
    · exact (fail_ok.mp hconsume).elim
    · exact (throw_ok.mp hconsume).elim

/-! ## 2. Loops -/

/-- **Loops have the same effect if their steps have.**  The induction is on the bound of the
rounds.  The first of the steps is recognized, so after a success both loops are in front of the
next value. -/
theorem effect_foldNext [Element ε] {first : α → Read α} {second : β → Read β}
    {interpret : α → ε → Option α} (hfirst : ReadsElement first scopes interpret)
    (hsteps : ∀ a b bytes position token name?, Names scopes name? →
      effect (first a) ⟨bytes, position, scopes, some token, name?.map (·.text)⟩ =
        effect (second b) ⟨bytes, position, scopes, some token, name?.map (·.text)⟩) :
    ∀ (left : Bytes) (a : α) (b : β) (bytes : Bytes) (position : Nat),
      effect (foldNext first left a) ⟨bytes, position, scopes, none, none⟩ =
        effect (foldNext second left b) ⟨bytes, position, scopes, none, none⟩ := by
  -- a round begins alike; what is left to compare is what follows a token that starts a value
  have hround : ∀ {bytes position} {x : Read α} {y : Read β} (a : α) (b : β),
      (∀ rest position token name?, Names scopes name? →
        effect x ⟨rest, position, scopes, some token, name?.map (·.text)⟩ =
          effect y ⟨rest, position, scopes, some token, name?.map (·.text)⟩) →
      effect (do if ← hasNext then x else return a) ⟨bytes, position, scopes, none, none⟩ =
        effect (do if ← hasNext then y else return b) ⟨bytes, position, scopes, none, none⟩ := by
    intro bytes position x y a b h
    refine effect_bind_right fun more seen hnext => ?_
    obtain ⟨token, hpeek, rfl⟩ := hasNext_ok.mp hnext
    rcases peek_ok.mp hpeek with ⟨name?, rest, hvalue, hnames, -, rfl⟩ | ⟨rest, rfl, -, rfl⟩
    · rw [if_pos hvalue, if_pos hvalue]
      exact h _ _ _ _ hnames
    · rw [startsValue_endToken]
      rfl
  intro left
  induction left with
  | nil =>
    intro a b bytes position
    exact hround a b fun rest position token name? hnames => hsteps a b _ _ _ _ hnames
  | cons byte left ih =>
    intro a b bytes position
    refine hround a b fun rest position token name? hnames => ?_
    refine effect_bind_congr (hsteps a b _ _ _ _ hnames) fun a b next ha _ => ?_
    obtain ⟨element, rest, -, -, -, -, -, rfl⟩ := (hfirst _ _ _ _ _ _ _ hnames).mp ha
    exact ih a b _ _

/-- So do loops that end with the scope, whatever is made of their answers. -/
theorem effect_untilClose [Element ε] {scope : Scope} {first : α → Read α} {second : β → Read β}
    {interpret : α → ε → Option α} (hfirst : ReadsElement first (scope :: scopes) interpret)
    (hsteps : ∀ a b bytes position token name?, Names (scope :: scopes) name? →
      effect (first a) ⟨bytes, position, scope :: scopes, some token, name?.map (·.text)⟩ =
        effect (second b) ⟨bytes, position, scope :: scopes, some token, name?.map (·.text)⟩)
    (a : α) (b : β) (k : β → γ) :
    effect (do let _ ← untilEnd first a; close scope)
        ⟨bytes, position, scope :: scopes, none, none⟩ =
      effect (do let b ← untilEnd second b; close scope; return k b)
        ⟨bytes, position, scope :: scopes, none, none⟩ := by
  refine effect_bind_congr ?_ fun _ b next _ _ => (effect_bind_pure (fun _ => k b) next).symm
  exact effect_foldNext hfirst hsteps _ a b bytes position

end Wire.Reader

namespace Value

open Wire.Reader

/-! ## 3. Whole values -/

/-- **Skipping and generic reading have the same effect**, with any budget that the nesting does not
exhaust.  The induction is on the budget. -/
theorem effect_skipWithin : ∀ {budget : Nat} {reader : Reader}, room reader.scopes < budget →
    AtValue reader → effect (skipWithin budget) reader = effect (readWithin budget) reader
  | 0, _, h, _ => absurd h (Nat.not_lt_zero _)
  | budget + 1, reader, h, hplace => by
    unfold skipWithin readWithin
    refine effect_bind_right fun token seen hpeek => ?_
    rw [effect_bind_of_ok (dropName_peeked hplace hpeek)]
    obtain ⟨bytes, position, scopes, peeked, fieldName⟩ := seen
    obtain ⟨hpeeked, hscopes, -, -⟩ := peek_leaves hpeek
    obtain rfl : peeked = some token := hpeeked
    rw [← show scopes = reader.scopes from hscopes] at h
    cases token
    case number => exact (effect_discard _).trans (effect_bind_pure _ _).symm
    case string => exact (effect_discard _).trans (effect_bind_pure _ _).symm
    case boolean => exact (effect_discard _).trans (effect_bind_pure _ _).symm
    case beginArray =>
      simp only [items, bind_assoc, pure_bind]
      refine effect_bind_right fun _ inside hopens => ?_
      obtain ⟨hroom, rfl⟩ := opens_leaves hopens
      have hdeeper : room (.array :: scopes) < budget := room_cons_lt hroom h
      have hskip := Recognizes.readsItem (fun _ : Unit => recognizes_skipWithin hdeeper) (by simp)
      refine effect_untilClose hskip ?_ () [] fun done => array done.reverse
      intro _ done bytes position token name? _
      rw [effect_bind_pure]
      exact effect_skipWithin hdeeper fun hobject => by cases hobject
    case beginObject =>
      simp only [discard_bind]
      refine effect_bind_right fun _ inside hopens => ?_
      obtain ⟨hroom, rfl⟩ := opens_leaves hopens
      have hdeeper : room (.object :: scopes) < budget := room_cons_lt hroom h
      have hskip := Recognizes.readsEntry fun (_ : Unit) _ => recognizes_skipWithin hdeeper
      refine effect_untilClose hskip ?_ () [] object
      intro _ fields bytes position token name? _
      refine effect_bind_right fun name next hname => ?_
      obtain ⟨-, rfl⟩ := nextName_ok.mp hname
      rw [effect_bind_pure]
      exact effect_skipWithin hdeeper fun _ => ⟨rfl, rfl⟩
    all_goals rfl

/-- **Skipping a value is reading it and throwing it away.**  Where a value may be read, both succeed
and leave the same reader, or both fail with the same error and leave the same reader behind. -/
theorem skip_iff_read {reader : Reader} (hplace : reader.AtValue) :
    (∀ after, skip reader = .ok () after ↔ ∃ value, read reader = .ok value after) ∧
      ∀ error after, skip reader = .error error after ↔ read reader = .error error after := by
  have h : effect skip reader = effect read reader :=
    effect_skipWithin (Nat.lt_succ_of_le (room_le _)) hplace
  refine ⟨fun after => ?_, fun error after => ?_⟩
  · rw [← effect_eq_none_iff, ← h, effect_eq_none_iff]
    exact ⟨fun hskip => ⟨(), hskip⟩, fun ⟨_, hskip⟩ => hskip⟩
  · rw [← effect_eq_some_iff, h, effect_eq_some_iff]

/-- Behind the name of an entry, an array that holds a text of one byte that is no UTF-8: both stop
behind that byte, with the array open. -/
theorem skip_iff_read_broken_text :
    ∃ entry, nextName ⟨[4, 0, 1, 0x61, 2, 0, 0, 0, 1, 0xff, 5, 7], 1, [.object], none, none⟩ =
        .ok "a" entry ∧
      skip entry = .error (.stream (.textNotUtf8 (.invalid 1 0)))
        ⟨[5, 7], 11, [.array, .object], none, none⟩ ∧
      read entry = .error (.stream (.textNotUtf8 (.invalid 1 0)))
        ⟨[5, 7], 11, [.array, .object], none, none⟩ := by
  let entry : Reader := ⟨[2, 0, 0, 0, 1, 0xff, 5, 7], 5, [.object], some .beginArray, none⟩
  have hname : nextName ⟨[4, 0, 1, 0x61, 2, 0, 0, 0, 1, 0xff, 5, 7], 1, [.object], none, none⟩ =
      .ok "a" entry := rfl
  have hskip : skip entry = .error (.stream (.textNotUtf8 (.invalid 1 0)))
      ⟨[5, 7], 11, [.array, .object], none, none⟩ := rfl
  exact ⟨entry, hname, hskip, ((skip_iff_read (atValue_of_nextName hname)).2 _ _).mp hskip⟩

end Value

end RemoteCall
