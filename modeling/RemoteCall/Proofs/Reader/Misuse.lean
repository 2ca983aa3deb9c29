/-
# Misusing a reader loses nothing

A call can be refused because the bytes are broken or because the caller is wrong: it asks for a
number where a string comes next, for a value before its name, for the end of a scope that still has
values.  `Misuse` lists the wrong calls with the error that each of them gets and the reader that it
leaves; these are all the calls whose error blames the caller (`refused_run_iff`).

Some of them are refused before the reader has looked ahead and some after, and what has been looked
at may by then have left the bytes.  So the reader need not be the same as before.  But nobody can
tell whether a reader has looked ahead already, except by its position: every operation either looks
first, and then goes on from the same reader, or is refused before it looks, in both cases
(`endsAlike_run`).  By induction this holds of every sequence of operations, refused ones among them
(`answers_of_peek`).

The list is short because a value that is skipped or read whole is never wrong inside.  The loops
take every name and ask for every value by its own token, so an error from within is one of the
bytes (`not_refused_skipWithin`).
-/
import RemoteCall.Proofs.Reader.Operations
import RemoteCall.Proofs.Value.Discarding

namespace RemoteCall

open Wire Success

/-- The errors that tell of a wrong call, not of broken bytes. -/
def Error.blamesCaller : Error → Bool
  | .unexpected _ _ => true
  | .stream (.nameNotTaken _) | .stream .nameOutsideObject => true
  | .stream (.notOpen _) | .stream (.unread _ _) => true
  | _ => false

namespace Wire.Reader

variable {α β ε : Type} {bytes : Bytes} {position : Nat} {scopes : List Scope} {token : Token}
  {before seen after : Reader} {error : Error}

/-! ## 1. Nobody sees that one has looked ahead -/

/-- The operation ends alike whether one has looked ahead already or not. -/
def SeesPast (x : Read α) : Prop :=
  ∀ ⦃before token seen⦄, peek before = .ok token seen → x seen = x before

theorem seesPast_peek : SeesPast peek := fun _ _ _ h => (peek_of_peek h).trans h.symm

theorem SeesPast.bind {x : Read α} (h : SeesPast x) (f : α → Read β) : SeesPast (x >>= f) := by
  intro before token seen hpeek
  show EStateM.bind x f seen = EStateM.bind x f before
  unfold EStateM.bind
  rw [h hpeek]

/-- The operation ends alike whether one has looked ahead already or not, or it is refused in both
cases before it looks. -/
def EndsAlike (x : Read α) : Prop :=
  ∀ ⦃before token seen⦄, peek before = .ok token seen → x seen = x before ∨
    ∃ error, x seen = .error error seen ∧ x before = .error error before

theorem SeesPast.endsAlike {x : Read α} (h : SeesPast x) : EndsAlike x :=
  fun _ _ _ hpeek => .inl (h hpeek)

theorem EndsAlike.bind {x : Read α} (h : EndsAlike x) (f : α → Read β) : EndsAlike (x >>= f) := by
  intro before token seen hpeek
  rcases h hpeek with hsame | ⟨error, hseen, hbefore⟩
  · left
    show EStateM.bind x f seen = EStateM.bind x f before
    unfold EStateM.bind
    rw [hsame]
  · exact .inr ⟨error, bind_error.mpr (.inl hseen), bind_error.mpr (.inl hbefore)⟩

theorem scope?_of_peek (h : peek before = .ok token seen) : seen.scope? = before.scope? := by
  rw [scope?, scope?, (peek_leaves h).2.1]

/-- A question for the innermost scope comes before the look ahead. -/
theorem endsAlike_scope {x : Option Scope → Read α}
    (h : ∀ scope, SeesPast (x scope) ∨ ∃ fault, x scope = fail fault) :
    EndsAlike (do x (← get).scope?) := by
  intro before token seen hpeek
  rw [get_bind, get_bind, scope?_of_peek hpeek]
  rcases h before.scope? with hx | ⟨fault, hx⟩
  · exact .inl (hx hpeek)
  · rw [hx]
    exact .inr ⟨.stream fault, rfl, rfl⟩

theorem endsAlike_nextName : EndsAlike nextName := by
  refine endsAlike_scope (x := fun scope => if scope = some .object then _ else _) fun scope => ?_
  split
  · exact .inl (seesPast_peek.bind _)
  · exact .inr ⟨_, rfl⟩

theorem endsAlike_close (scope : Scope) : EndsAlike (close scope) := by
  refine endsAlike_scope (x := fun found => if found = some scope then _ else _) fun found => ?_
  split
  · exact .inl (seesPast_peek.bind _)
  · exact .inr ⟨_, rfl⟩

theorem endsAlike_finish : EndsAlike finish := by
  intro before token seen hpeek
  rw [finish, get_bind, get_bind, scope?_of_peek hpeek]
  cases before.scope? with
  | some scope => exact .inr ⟨.stream (.unclosed scope), rfl, rfl⟩
  | none => exact .inl (seesPast_peek.bind _ hpeek)

theorem seesPast_consume (token : Token) (expected : Expectation) :
    SeesPast (consume token expected) :=
  seesPast_peek.bind _

/-- **Every operation ends alike** whether one has looked ahead already or not. -/
theorem endsAlike_run (op : Operation) : EndsAlike op.run := by
  cases op
  case peek => exact (seesPast_peek.bind _).endsAlike
  case hasNext => exact ((seesPast_peek.bind _).bind _).endsAlike
  case nextName => exact endsAlike_nextName.bind _
  case number => exact (((seesPast_consume _ _).bind _).bind _).endsAlike
  case string => exact (((seesPast_consume _ _).bind _).bind _).endsAlike
  case boolean => exact (((seesPast_consume _ _).bind _).bind _).endsAlike
  case opens scope => cases scope <;> exact (((seesPast_consume _ _).bind _).bind _).endsAlike
  case closes scope => cases scope <;> exact (endsAlike_close _).bind _
  case skip => exact ((seesPast_peek.bind _).bind _).endsAlike
  case value => exact ((seesPast_peek.bind _).bind _).endsAlike
  case finish => exact endsAlike_finish.bind _

/-- **Nobody sees that one has looked ahead**, however long one goes on. -/
theorem answers_of_peek : ∀ (ops : List Operation) {before seen : Reader},
    peek before = .ok token seen → answers ops seen = answers ops before
  | [], _, _, _ => rfl
  | op :: ops, before, seen, h => by
    rw [answers, answers]
    rcases endsAlike_run op h with hsame | ⟨error, hseen, hbefore⟩
    · rw [Operation.answer, Operation.answer, effect, effect, hsame]
    · rw [Operation.answer, Operation.answer, effect, effect, hseen, hbefore]
      exact congrArg _ (answers_of_peek ops h)

/-! ## 2. Refusals that blame the caller -/

/-- The operation is refused, and the error blames the caller. -/
def Refused (x : Read α) (before : Reader) (error : Error) (after : Reader) : Prop :=
  x before = .error error after ∧ error.blamesCaller = true

/-- The errors that tell of broken bytes, or of a nesting that is too deep. -/
def BlamesBytes (error : Error) : Prop := error.blamesCaller = false

theorem not_refused_of_fails {x : Read α} (h : Fails BlamesBytes x) :
    ¬ Refused x before error after := by
  rintro ⟨hx, hblame⟩
  have hbytes : error.blamesCaller = false := h before error after hx
  rw [hbytes] at hblame
  cases hblame

theorem refused_bind {x : Read α} {f : α → Read β} :
    Refused (x >>= f) before error after ↔ Refused x before error after ∨
      ∃ a mid, x before = .ok a mid ∧ Refused (f a) mid error after := by
  unfold Refused
  rw [bind_error, or_and_right]
  refine or_congr_right ⟨?_, ?_⟩
  · rintro ⟨⟨a, mid, hx, hf⟩, hblame⟩
    exact ⟨a, mid, hx, hf, hblame⟩
  · rintro ⟨a, mid, hx, hf, hblame⟩
    exact ⟨⟨a, mid, hx, hf⟩, hblame⟩

/-- Where what follows can only fail for the bytes, the caller is blamed by the first part. -/
theorem refused_bind_of_fails {x : Read α} {f : α → Read β} (h : ∀ a, Fails BlamesBytes (f a)) :
    Refused (x >>= f) before error after ↔ Refused x before error after := by
  rw [refused_bind]
  refine or_iff_left ?_
  rintro ⟨a, mid, -, hf⟩
  exact not_refused_of_fails (h a) hf

/-- Where the first part can only fail for the bytes, the caller is blamed by what follows. -/
theorem refused_of_fails_bind {x : Read α} {f : α → Read β} (h : Fails BlamesBytes x) :
    Refused (x >>= f) before error after ↔
      ∃ a mid, x before = .ok a mid ∧ Refused (f a) mid error after := by
  rw [refused_bind]
  exact or_iff_right (not_refused_of_fails h)

theorem refused_throw {found : Error} (hblame : found.blamesCaller = true) :
    Refused (throw found : Read α) before error after ↔ error = found ∧ after = before := by
  show EStateM.Result.error found before = .error error after ∧ _ ↔ _
  rw [EStateM.Result.error.injEq, eq_comm, @eq_comm _ before]
  refine and_iff_left_of_imp ?_
  rintro ⟨rfl, -⟩
  exact hblame

/-- Operations with the same effect are refused alike. -/
theorem refused_congr {x : Read α} {y : Read β} (h : effect x before = effect y before) :
    Refused x before error after ↔ Refused y before error after := by
  rw [Refused, Refused, ← effect_eq_some_iff, h, effect_eq_some_iff]

/-! ### Errors of the bytes -/

theorem bytes_fail {fault : StreamFault} (h : (Error.stream fault).blamesCaller = false) :
    Fails BlamesBytes (fail fault : Read α) :=
  .throw h

theorem bytes_take (count : Nat) : Fails BlamesBytes (take count) := by
  intro before error after h
  obtain ⟨rfl, -⟩ := take_error.mp h
  rfl

theorem bytes_takeText {width : Nat} {fault : Utf8.Fault → StreamFault}
    (h : ∀ place, (Error.stream (fault place)).blamesCaller = false) :
    Fails BlamesBytes (takeText width fault) := by
  intro before error after htext
  obtain ⟨-, ⟨_, _, _, rfl⟩ | ⟨place, rfl⟩⟩ := takeText_error htext
  · rfl
  · exact h place

theorem bytes_nextTag : Fails BlamesBytes nextTag := by
  refine Fails.get.bind fun reader => ?_
  split
  · split
    · exact .pure _
    · exact bytes_fail rfl
  · split
    · exact bytes_fail rfl
    · split
      · rename_i fault hfault
        refine bytes_fail ?_
        unfold misplacement at hfault
        split at hfault <;> cases hfault <;> rfl
      · exact (Fails.set _).bind fun _ => .pure _

theorem bytes_peek : Fails BlamesBytes peek := by
  refine Fails.get.bind fun reader => ?_
  split
  · exact .pure _
  · refine bytes_nextTag.bind fun token => .bind ?_ fun _ => (Fails.modify _).bind fun _ => .pure _
    exact Fails.get.bind fun _ =>
      .ite ((bytes_takeText fun _ => rfl).bind fun _ => .modify _) (.pure _)

theorem bytes_push (scope : Scope) : Fails BlamesBytes (push scope) :=
  Fails.get.bind fun _ => .ite (.modify _) (bytes_fail rfl)

/-- What follows the tag of a number. -/
theorem bytes_number : Fails BlamesBytes (do return (← take 8).toInt64) :=
  (bytes_take 8).bind fun _ => .pure _

theorem bytes_boolean : Fails BlamesBytes (do
    let byte := (← take 1).headD 0
    if byte = 0 then return false
    else if byte = 1 then return true
    else fail (.invalidBoolean byte)) :=
  (bytes_take 1).bind fun _ => .ite (.pure _) (.ite (.pure _) (bytes_fail rfl))

/-! ### Errors of the caller -/

theorem refused_get_bind {f : Reader → Read α} :
    Refused (get >>= f) before error after ↔ Refused (f before) before error after :=
  Iff.rfl

theorem refused_consume {expected : Expectation} :
    Refused (consume token expected) before error after ↔
      ∃ found, peek before = .ok found after ∧
        (found ≠ token ∧ error = .unexpected expected found ∨
          found = token ∧ after.fieldName ≠ none ∧
            error = .stream (.nameNotTaken token)) := by
  unfold consume
  rw [refused_of_fails_bind bytes_peek]
  constructor
  · rintro ⟨found, seen, hpeek, h⟩
    split at h
    · rename_i hfound
      rw [refused_get_bind] at h
      split at h
      · exact (not_refused_of_fails (.modify _) h).elim
      · rename_i hname
        obtain ⟨rfl, rfl⟩ := (refused_throw rfl).mp h
        exact ⟨found, hpeek, .inr ⟨hfound, by simpa using hname, rfl⟩⟩
    · rename_i hfound
      obtain ⟨rfl, rfl⟩ := (refused_throw rfl).mp h
      exact ⟨found, hpeek, .inl ⟨hfound, rfl⟩⟩
  · rintro ⟨found, hpeek, ⟨hfound, rfl⟩ | ⟨rfl, hname, rfl⟩⟩
    · refine ⟨found, after, hpeek, ?_⟩
      rw [if_neg hfound]
      exact (refused_throw rfl).mpr ⟨rfl, rfl⟩
    · refine ⟨found, after, hpeek, ?_⟩
      rw [if_pos rfl, refused_get_bind, if_neg (by simpa using hname)]
      exact (refused_throw rfl).mpr ⟨rfl, rfl⟩

theorem refused_nextName :
    Refused nextName before error after ↔
      before.scope? ≠ some .object ∧ error = .stream .nameOutsideObject ∧ after = before ∨
      before.scope? = some .object ∧ ∃ found, peek before = .ok found after ∧
        after.fieldName = none ∧ error = .unexpected .fieldName found := by
  unfold nextName
  rw [refused_get_bind]
  split
  · rename_i hobject
    rw [refused_of_fails_bind bytes_peek]
    simp only [hobject, ne_eq, not_true_eq_false, false_and, true_and, false_or]
    refine exists_congr fun found => ?_
    constructor
    · rintro ⟨seen, hpeek, h⟩
      rw [refused_get_bind] at h
      cases hname : seen.fieldName with
      | some name =>
        rw [hname] at h
        exact (not_refused_of_fails ((Fails.modify _).bind fun _ => .pure _) h).elim
      | none =>
        rw [hname] at h
        obtain ⟨rfl, rfl⟩ := (refused_throw rfl).mp h
        exact ⟨hpeek, hname, rfl⟩
    · rintro ⟨hpeek, hname, rfl⟩
      refine ⟨after, hpeek, ?_⟩
      rw [refused_get_bind, hname]
      exact (refused_throw rfl).mpr ⟨rfl, rfl⟩
  · rename_i hobject
    simp only [hobject, ne_eq, not_false_eq_true, true_and, false_and, or_false]
    exact refused_throw rfl

theorem refused_close {scope : Scope} :
    Refused (close scope) before error after ↔
      before.scope? ≠ some scope ∧ error = .stream (.notOpen scope) ∧ after = before ∨
      before.scope? = some scope ∧ ∃ found, peek before = .ok found after ∧
        found ≠ scope.closing ∧ error = .stream (.unread scope found) := by
  unfold close
  rw [refused_get_bind]
  split
  · rename_i hscope
    rw [refused_of_fails_bind bytes_peek]
    simp only [hscope, ne_eq, not_true_eq_false, false_and, true_and, false_or]
    refine exists_congr fun found => ?_
    constructor
    · rintro ⟨seen, hpeek, h⟩
      split at h
      · exact (not_refused_of_fails (.modify _) h).elim
      · rename_i hfound
        obtain ⟨rfl, rfl⟩ := (refused_throw rfl).mp h
        exact ⟨hpeek, hfound, rfl⟩
    · rintro ⟨hpeek, hfound, rfl⟩
      refine ⟨after, hpeek, ?_⟩
      rw [if_neg hfound]
      exact (refused_throw rfl).mpr ⟨rfl, rfl⟩
  · rename_i hscope
    simp only [hscope, ne_eq, not_false_eq_true, true_and, false_and, or_false]
    exact refused_throw rfl

/-! ## 3. Whole values -/

/-- The caller is not blamed by a loop if it is not by its rounds.  The induction is on the bound of
the rounds; after each of them the reader is in front of the next value. -/
theorem not_refused_foldNext [Element ε] {step : β → Read β} {interpret : β → ε → Option β}
    (hstep : ReadsElement step scopes interpret)
    (hround : ∀ b bytes position token name?, Names scopes name? → token.startsValue = true →
      ¬ Refused (step b) ⟨bytes, position, scopes, some token, name?.map (·.text)⟩ error after) :
    ∀ (left : Bytes) (b : β) (bytes : Bytes) (position : Nat),
      ¬ Refused (foldNext step left b) ⟨bytes, position, scopes, none, none⟩ error after := by
  have hnext : Fails BlamesBytes hasNext := bytes_peek.bind fun _ => .pure _
  -- the end of the scope is no reason to blame anybody, so only what follows a value matters
  have hgoes : ∀ {bytes position} {x : Read β} {b : β},
      Refused (do if ← hasNext then x else return b) ⟨bytes, position, scopes, none, none⟩
        error after →
      ∃ rest position token name?, Names scopes name? ∧ token.startsValue = true ∧
        Refused x ⟨rest, position, scopes, some token, name?.map (·.text)⟩ error after := by
    intro bytes position x b h
    obtain ⟨more, seen, hmore, h⟩ := (refused_of_fails_bind hnext).mp h
    obtain ⟨token, hpeek, rfl⟩ := hasNext_ok.mp hmore
    rcases peek_ok.mp hpeek with ⟨name?, rest, hvalue, hnames, -, rfl⟩ | ⟨rest, rfl, -, rfl⟩
    · rw [if_pos hvalue] at h
      exact ⟨_, _, token, name?, hnames, hvalue, h⟩
    · rw [startsValue_endToken] at h
      exact (not_refused_of_fails (.pure b) h).elim
  intro left
  induction left with
  | nil =>
    intro b bytes position h
    obtain ⟨rest, position, token, name?, hnames, hvalue, h⟩ := hgoes h
    exact hround b rest position token name? hnames hvalue h
  | cons byte left ih =>
    intro b bytes position h
    obtain ⟨rest, position, token, name?, hnames, hvalue, h⟩ := hgoes h
    rcases refused_bind.mp h with h | ⟨b', next, hb', h⟩
    · exact hround b rest position token name? hnames hvalue h
    · obtain ⟨element, rest, -, -, -, -, -, rfl⟩ := (hstep _ _ _ _ _ _ _ hnames).mp hb'
      exact ih b' _ _ h

/-- Nor by the end of the scope that follows. -/
theorem not_refused_untilClose [Element ε] {scope : Scope} {step : Unit → Read Unit}
    {interpret : Unit → ε → Option Unit} (hstep : ReadsElement step (scope :: scopes) interpret)
    (hround : ∀ b bytes position token name?, Names (scope :: scopes) name? →
      token.startsValue = true → ¬ Refused (step b)
        ⟨bytes, position, scope :: scopes, some token, name?.map (·.text)⟩ error after) :
    ¬ Refused (do untilEnd step (); close scope) ⟨bytes, position, scope :: scopes, none, none⟩
      error after := by
  intro h
  rcases refused_bind.mp h with h | ⟨_, ended, hended, h⟩
  · exact not_refused_foldNext hstep hround _ _ _ _ h
  · obtain ⟨elements, tail, rest, -, -, -, -, rfl⟩ := (untilEnd_ok hstep).mp hended
    rcases refused_close.mp h with ⟨hscope, -, -⟩ | ⟨-, found, hpeek, hfound, -⟩
    · exact hscope rfl
    · exact hfound (peek_of_peeked.mp hpeek).1.symm

theorem not_refused_consume {expected : Expectation} :
    ¬ Refused (consume token expected) ⟨bytes, position, scopes, some token, none⟩ error after := by
  rw [refused_consume]
  rintro ⟨found, hpeek, ⟨hfound, -⟩ | ⟨-, hname, -⟩⟩
  · exact hfound (peek_of_peeked.mp hpeek).1.symm
  · obtain ⟨-, rfl⟩ := peek_of_peeked.mp hpeek
    exact hname rfl

/-- **Within a value that is skipped the caller is never blamed.**  The induction is on the
budget. -/
theorem not_refused_skipWithin : ∀ {budget : Nat} {bytes : Bytes} {position : Nat}
    {scopes : List Scope} {token : Token}, room scopes < budget → token.startsValue = true →
    ¬ Refused (skipWithin budget) ⟨bytes, position, scopes, some token, none⟩ error after
  | 0, _, _, _, _, h, _ => absurd h (Nat.not_lt_zero _)
  | budget + 1, bytes, position, scopes, token, h, hvalue => by
    unfold skipWithin
    rw [Refused, bind_of_ok (peek_of_peeked.mpr ⟨rfl, rfl⟩), bind_of_ok dropName_of_taken,
      ← Refused]
    intro hrefused
    cases token
    case number =>
      rw [refused_congr (effect_discard _)] at hrefused
      exact not_refused_consume ((refused_bind_of_fails fun _ => bytes_number).mp hrefused)
    case string =>
      rw [refused_congr (effect_discard _)] at hrefused
      exact not_refused_consume
        ((refused_bind_of_fails fun _ => bytes_takeText fun _ => rfl).mp hrefused)
    case boolean =>
      rw [refused_congr (effect_discard _)] at hrefused
      exact not_refused_consume ((refused_bind_of_fails fun _ => bytes_boolean).mp hrefused)
    case beginArray =>
      rcases refused_bind.mp hrefused with hopens | ⟨_, inside, hopens, hinside⟩
      · exact not_refused_consume ((refused_bind_of_fails fun _ => bytes_push _).mp hopens)
      · obtain ⟨hroom, rfl⟩ := opens_leaves hopens
        have hdeeper : room (.array :: scopes) < budget := room_cons_lt hroom h
        have hskip := Recognizes.readsItem (fun _ : Unit => recognizes_skipWithin hdeeper) (by simp)
        refine not_refused_untilClose hskip ?_ hinside
        intro _ bytes position token name? hnames hvalue
        obtain rfl : name? = none := by simpa [Names] using hnames
        exact not_refused_skipWithin hdeeper hvalue
    case beginObject =>
      rcases refused_bind.mp hrefused with hopens | ⟨_, inside, hopens, hinside⟩
      · exact not_refused_consume ((refused_bind_of_fails fun _ => bytes_push _).mp hopens)
      · obtain ⟨hroom, rfl⟩ := opens_leaves hopens
        have hdeeper : room (.object :: scopes) < budget := room_cons_lt hroom h
        have hskip := Recognizes.readsEntry fun (_ : Unit) _ => recognizes_skipWithin hdeeper
        simp only [discard_bind] at hinside
        refine not_refused_untilClose hskip ?_ hinside
        intro _ bytes position token name? hnames hvalue hround
        rcases refused_bind.mp hround with hname | ⟨name, next, hname, hnext⟩
        · rcases refused_nextName.mp hname with ⟨hscope, -⟩ | ⟨-, found, hpeek, hnone, -⟩
          · exact hscope rfl
          · obtain ⟨-, rfl⟩ := peek_of_peeked.mp hpeek
            obtain rfl : name? = none := by simpa using hnone
            simp [Names] at hnames
        · obtain ⟨-, rfl⟩ := nextName_ok.mp hname
          exact not_refused_skipWithin hdeeper hvalue hnext
    all_goals cases hvalue

/-- Dropping the name of what has been looked at, if there is one to be dropped. -/
theorem dropName_of_sound (h : Sound before) :
    dropName before = .ok () { before with fieldName := none } := by
  obtain ⟨bytes, position, scopes, peeked, fieldName⟩ := before
  cases fieldName with
  | none => exact dropName_of_taken
  | some name =>
    have hobject := (h.named name rfl).1
    unfold dropName
    rw [get_bind, if_pos hobject]
    rfl

/-- What looks first is refused as it is after a look ahead. -/
theorem refused_peek_bind {f : Token → Read α} :
    Refused (peek >>= f) before error after ↔
      ∃ found seen, peek before = .ok found seen ∧ Refused (peek >>= f) seen error after := by
  rw [refused_of_fails_bind bytes_peek]
  refine exists_congr fun found => exists_congr fun seen => and_congr_right fun hpeek => ?_
  rw [Refused, Refused, bind_of_ok (peek_of_peek hpeek)]

/-- **What skipping is refused for**: there is no value left. -/
theorem refused_skip_peeked (hsound : Sound before) (hpeeked : before.peeked = some token) :
    Refused skip before error after ↔
      after = before ∧ token.startsValue = false ∧ error = .unexpected .value token := by
  obtain ⟨bytes, position, scopes, peeked, fieldName⟩ := before
  obtain rfl : peeked = some token := hpeeked
  have hpeek (name : Option String) : peek ⟨bytes, position, scopes, some token, name⟩ =
      .ok token ⟨bytes, position, scopes, some token, name⟩ := peek_of_some rfl
  by_cases hvalue : token.startsValue = true
  · have hforget : skip ⟨bytes, position, scopes, some token, fieldName⟩ =
        skip ⟨bytes, position, scopes, some token, none⟩ := by
      unfold skip skipWithin
      rw [bind_of_ok (hpeek _), bind_of_ok (hpeek _), bind_of_ok (dropName_of_sound hsound),
        bind_of_ok dropName_of_taken]
    rw [Refused, hforget, ← Refused]
    refine iff_of_false ?_ fun h => ?_
    · exact not_refused_skipWithin (Nat.lt_succ_of_le (room_le scopes)) hvalue
    · rw [hvalue] at h
      cases h.2.1
  · obtain rfl : fieldName = none := hsound.unnamed_of_end rfl (by simpa using hvalue)
    unfold skip skipWithin
    rw [Refused, bind_of_ok (hpeek _), bind_of_ok dropName_of_taken, ← Refused]
    cases token
    case endOfStream | endArray | endObject =>
      refine (refused_throw rfl).trans ⟨?_, ?_⟩
      · rintro ⟨rfl, rfl⟩
        exact ⟨rfl, rfl, rfl⟩
      · rintro ⟨rfl, -, rfl⟩
        exact ⟨rfl, rfl⟩
    all_goals exact (hvalue rfl).elim

/-- A value whose name has not been taken is not read. -/
theorem read_named (hpeeked : before.peeked = some token) (hvalue : token.startsValue = true)
    (hname : before.fieldName ≠ none) :
    Value.read before = .error (.stream (.nameNotTaken token)) before := by
  have hpeek := peek_of_some hpeeked
  have hconsume (expected : Expectation) :
      consume token expected before = .error (.stream (.nameNotTaken token)) before :=
    (refused_consume.mpr ⟨token, hpeek, .inr ⟨rfl, hname, rfl⟩⟩).1
  unfold Value.read Value.readWithin
  rw [bind_of_ok hpeek]
  cases token
  case number => exact bind_error.mpr (.inl (bind_error.mpr (.inl (hconsume _))))
  case string => exact bind_error.mpr (.inl (bind_error.mpr (.inl (hconsume _))))
  case boolean => exact bind_error.mpr (.inl (bind_error.mpr (.inl (hconsume _))))
  case beginArray => exact bind_error.mpr (.inl (bind_error.mpr (.inl (hconsume _))))
  case beginObject => exact bind_error.mpr (.inl (bind_error.mpr (.inl (hconsume _))))
  all_goals cases hvalue

/-- **What reading any value is refused for**: there is none left, or its name has not been
taken. -/
theorem refused_read_peeked (hsound : Sound before) (hpeeked : before.peeked = some token) :
    Refused Value.read before error after ↔ after = before ∧
      (token.startsValue = false ∧ error = .unexpected .value token ∨
        token.startsValue = true ∧ before.fieldName ≠ none ∧
          error = .stream (.nameNotTaken token)) := by
  by_cases hname : before.fieldName = none
  · -- then reading is refused as skipping is
    have heffect : effect Value.read before = effect skip before :=
      (Value.effect_skipWithin (Nat.lt_succ_of_le (room_le _)) fun _ =>
        ⟨by rw [hpeeked]; rfl, hname⟩).symm
    rw [refused_congr heffect, refused_skip_peeked hsound hpeeked]
    simp [hname]
  · have hvalue : token.startsValue = true := by
      by_contra hend
      exact hname (hsound.unnamed_of_end hpeeked (by simpa using hend))
    rw [Refused, read_named hpeeked hvalue hname, EStateM.Result.error.injEq]
    constructor
    · rintro ⟨⟨rfl, rfl⟩, -⟩
      exact ⟨rfl, .inr ⟨hvalue, hname, rfl⟩⟩
    · rintro ⟨rfl, ⟨hend, -⟩ | ⟨-, -, rfl⟩⟩
      · rw [hvalue] at hend
        cases hend
      · exact ⟨⟨rfl, rfl⟩, rfl⟩

/-! ## 4. Wrong calls -/

/-- The token a primitive asks for, and how it is called in its errors. -/
def Operation.wants? : Operation → Option (Token × Expectation)
  | number => some (.number, .number)
  | string => some (.string, .string)
  | boolean => some (.boolean, .boolean)
  | opens .array => some (.beginArray, .arrayStart)
  | opens .object => some (.beginObject, .objectStart)
  | _ => none

/-- **The wrong calls**, each with the error that it gets and the reader that it leaves. -/
inductive Misuse (reader : Reader) : Operation → Error → Reader → Prop where
  /-- A scalar or a scope is asked for, and something else comes next. -/
  | otherToken {op : Operation} {token found : Token} {expected : Expectation} {seen : Reader}
    (hwants : op.wants? = some (token, expected)) (hpeek : peek reader = .ok found seen)
    (hother : found ≠ token) : Misuse reader op (.unexpected expected found) seen
  /-- A scalar or a scope is asked for whose name has not been taken. -/
  | nameNotTaken {op : Operation} {token : Token} {expected : Expectation} {seen : Reader}
    (hwants : op.wants? = some (token, expected)) (hpeek : peek reader = .ok token seen)
    (hname : seen.fieldName ≠ none) : Misuse reader op (.stream (.nameNotTaken token)) seen
  /-- Any value is asked for, and its name has not been taken. -/
  | valueNotNamed {token : Token} {seen : Reader} (hpeek : peek reader = .ok token seen)
    (hvalue : token.startsValue = true) (hname : seen.fieldName ≠ none) :
    Misuse reader .value (.stream (.nameNotTaken token)) seen
  /-- Any value is to be read or skipped, and none is left. -/
  | noValue {op : Operation} {token : Token} {seen : Reader} (hop : op = .skip ∨ op = .value)
    (hpeek : peek reader = .ok token seen) (hend : token.startsValue = false) :
    Misuse reader op (.unexpected .value token) seen
  /-- A name is asked for outside of an object. -/
  | outsideObject (hscope : reader.scope? ≠ some .object) :
    Misuse reader .nextName (.stream .nameOutsideObject) reader
  /-- A name is asked for that has been taken, or at the end of the object. -/
  | noName {token : Token} {seen : Reader} (hscope : reader.scope? = some .object)
    (hpeek : peek reader = .ok token seen) (hname : seen.fieldName = none) :
    Misuse reader .nextName (.unexpected .fieldName token) seen
  /-- Another scope than the innermost is to be closed. -/
  | otherScope {scope : Scope} (hscope : reader.scope? ≠ some scope) :
    Misuse reader (.closes scope) (.stream (.notOpen scope)) reader
  /-- A scope is to be closed that has values left. -/
  | unread {scope : Scope} {token : Token} {seen : Reader} (hscope : reader.scope? = some scope)
    (hpeek : peek reader = .ok token seen) (hmore : token ≠ scope.closing) :
    Misuse reader (.closes scope) (.stream (.unread scope token)) seen

/-- A primitive that asks for a token is refused as the token is. -/
theorem refused_wants {op : Operation} {expected : Expectation}
    (h : op.wants? = some (token, expected)) :
    Refused op.run before error after ↔ Refused (consume token expected) before error after := by
  cases op
  case number =>
    cases h
    refine (refused_bind_of_fails fun _ => .pure _).trans ?_
    exact refused_bind_of_fails fun _ => bytes_number
  case string =>
    cases h
    refine (refused_bind_of_fails fun _ => .pure _).trans ?_
    exact refused_bind_of_fails fun _ => bytes_takeText fun _ => rfl
  case boolean =>
    cases h
    refine (refused_bind_of_fails fun _ => .pure _).trans ?_
    exact refused_bind_of_fails fun _ => bytes_boolean
  case opens scope =>
    cases scope <;> cases h <;>
      exact (refused_bind_of_fails fun _ => .pure _).trans
        (refused_bind_of_fails fun _ => bytes_push _)
  all_goals cases h

theorem refused_nextName_iff :
    Refused Operation.nextName.run before error after ↔ Misuse before .nextName error after := by
  refine (refused_bind_of_fails fun _ => .pure _).trans ?_
  rw [refused_nextName]
  constructor
  · rintro (⟨hscope, rfl, rfl⟩ | ⟨hscope, found, hpeek, hname, rfl⟩)
    · exact .outsideObject hscope
    · exact .noName hscope hpeek hname
  · intro h
    cases h with
    | otherToken hwants => cases hwants
    | nameNotTaken hwants => cases hwants
    | noValue hop => rcases hop with hop | hop <;> cases hop
    | outsideObject hscope => exact .inl ⟨hscope, rfl, rfl⟩
    | noName hscope hpeek hname => exact .inr ⟨hscope, _, hpeek, hname, rfl⟩

theorem refused_closes_iff {scope : Scope} :
    Refused (Operation.closes scope).run before error after ↔
      Misuse before (.closes scope) error after := by
  have hrun : Refused (Operation.closes scope).run before error after ↔
      Refused (close scope) before error after := by
    cases scope <;> exact refused_bind_of_fails fun _ => .pure _
  rw [hrun, refused_close]
  constructor
  · rintro (⟨hscope, rfl, rfl⟩ | ⟨hscope, found, hpeek, hmore, rfl⟩)
    · exact .otherScope hscope
    · exact .unread hscope hpeek hmore
  · intro h
    cases h with
    | otherToken hwants => cases hwants
    | nameNotTaken hwants => cases hwants
    | noValue hop => rcases hop with hop | hop <;> cases hop
    | otherScope hscope => exact .inl ⟨hscope, rfl, rfl⟩
    | unread hscope hpeek hmore => exact .inr ⟨hscope, _, hpeek, hmore, rfl⟩

theorem refused_skip_iff (hsound : Sound before) :
    Refused Operation.skip.run before error after ↔ Misuse before .skip error after := by
  refine (refused_bind_of_fails fun _ => .pure _).trans (refused_peek_bind.trans ?_)
  constructor
  · rintro ⟨found, seen, hpeek, h⟩
    obtain ⟨rfl, hend, rfl⟩ :=
      (refused_skip_peeked (sound_peek.of_ok hsound hpeek) (peeked_of_peek hpeek)).mp h
    exact .noValue (.inl rfl) hpeek hend
  · intro h
    cases h with
    | otherToken hwants => cases hwants
    | nameNotTaken hwants => cases hwants
    | noValue _ hpeek hend =>
      exact ⟨_, after, hpeek,
        (refused_skip_peeked (sound_peek.of_ok hsound hpeek) (peeked_of_peek hpeek)).mpr
          ⟨rfl, hend, rfl⟩⟩

theorem refused_value_iff (hsound : Sound before) :
    Refused Operation.value.run before error after ↔ Misuse before .value error after := by
  refine (refused_bind_of_fails fun _ => .pure _).trans (refused_peek_bind.trans ?_)
  constructor
  · rintro ⟨found, seen, hpeek, h⟩
    obtain ⟨rfl, ⟨hend, rfl⟩ | ⟨hvalue, hname, rfl⟩⟩ :=
      (refused_read_peeked (sound_peek.of_ok hsound hpeek) (peeked_of_peek hpeek)).mp h
    · exact .noValue (.inr rfl) hpeek hend
    · exact .valueNotNamed hpeek hvalue hname
  · intro h
    cases h with
    | otherToken hwants => cases hwants
    | nameNotTaken hwants => cases hwants
    | noValue _ hpeek hend =>
      exact ⟨_, after, hpeek,
        (refused_read_peeked (sound_peek.of_ok hsound hpeek) (peeked_of_peek hpeek)).mpr
          ⟨rfl, .inl ⟨hend, rfl⟩⟩⟩
    | valueNotNamed hpeek hvalue hname =>
      exact ⟨_, after, hpeek,
        (refused_read_peeked (sound_peek.of_ok hsound hpeek) (peeked_of_peek hpeek)).mpr
          ⟨rfl, .inr ⟨hvalue, hname, rfl⟩⟩⟩

theorem refused_wants_iff {op : Operation} {expected : Expectation}
    (hwants : op.wants? = some (token, expected)) :
    Refused op.run before error after ↔ Misuse before op error after := by
  rw [refused_wants hwants, refused_consume]
  constructor
  · rintro ⟨found, hpeek, ⟨hother, rfl⟩ | ⟨rfl, hname, rfl⟩⟩
    · exact .otherToken hwants hpeek hother
    · exact .nameNotTaken hwants hpeek hname
  · intro h
    cases h with
    | otherToken hwants' hpeek hother =>
      cases hwants.symm.trans hwants'
      exact ⟨_, hpeek, .inl ⟨hother, rfl⟩⟩
    | nameNotTaken hwants' hpeek hname =>
      cases hwants.symm.trans hwants'
      exact ⟨_, hpeek, .inr ⟨rfl, hname, rfl⟩⟩
    | noValue hop => rcases hop with rfl | rfl <;> cases hwants
    | valueNotNamed | outsideObject | noName | otherScope | unread => cases hwants

/-- Looking ahead is never wrong, nor is the end of the stream, after which there is no reader. -/
theorem not_misuse_peek {op : Operation} (hop : op = .peek ∨ op = .hasNext ∨ op = .finish) :
    ¬ Misuse before op error after := by
  intro h
  cases h with
  | otherToken hwants => rcases hop with rfl | rfl | rfl <;> cases hwants
  | nameNotTaken hwants => rcases hop with rfl | rfl | rfl <;> cases hwants
  | noValue hskip => rcases hop with rfl | rfl | rfl <;> rcases hskip with h | h <;> cases h
  | valueNotNamed | outsideObject | noName | otherScope | unread =>
    rcases hop with h | h | h <;> cases h

theorem bytes_finish : Fails BlamesBytes finish := by
  refine Fails.get.bind fun reader => ?_
  split
  · exact bytes_fail rfl
  · refine bytes_peek.bind fun token => ?_
    split
    · exact Fails.get.bind fun _ => .pure _
    · exact bytes_fail rfl

/-- **The wrong calls are all the calls that are refused because of the caller.** -/
theorem refused_run_iff {op : Operation} (hsound : Sound before) :
    Refused op.run before error after ↔ Misuse before op error after := by
  cases op
  case number => exact refused_wants_iff rfl
  case string => exact refused_wants_iff rfl
  case boolean => exact refused_wants_iff rfl
  case opens scope => cases scope <;> exact refused_wants_iff rfl
  case nextName => exact refused_nextName_iff
  case closes scope => exact refused_closes_iff
  case skip => exact refused_skip_iff hsound
  case value => exact refused_value_iff hsound
  case peek =>
    exact iff_of_false (not_refused_of_fails (bytes_peek.bind fun _ => .pure _))
      (not_misuse_peek (.inl rfl))
  case hasNext =>
    exact iff_of_false
      (not_refused_of_fails ((bytes_peek.bind fun _ => .pure _).bind fun _ => .pure _))
      (not_misuse_peek (.inr (.inl rfl)))
  case finish =>
    exact iff_of_false (not_refused_of_fails (bytes_finish.bind fun _ => .pure _))
      (not_misuse_peek (.inr (.inr rfl)))

/-- What a wrong call leaves: the reader as it was, or as a look ahead leaves it. -/
theorem Misuse.leaves {op : Operation} (h : Misuse before op error after) :
    after = before ∨ ∃ token, peek before = .ok token after := by
  cases h with
  | outsideObject | otherScope => exact .inl rfl
  | otherToken _ hpeek | nameNotTaken _ hpeek | valueNotNamed hpeek | noValue _ hpeek
  | noName _ hpeek | unread _ hpeek => exact .inr ⟨_, hpeek⟩

/-- **Misusing a reader loses nothing.**  The calls of which the error blames the caller are the
wrong ones of the list, on any bytes and after any operations, refused ones among them.  Each leaves
the reader as it was or as a look ahead leaves it, and whatever is asked afterwards is answered as
if the call had not been made. -/
theorem misuse_unseen (bytes : Bytes) (earlier : List Operation) (op : Operation) (error : Error)
    (after : Reader) :
    let reader := attempts earlier (ofBytes bytes)
    (op.run reader = .error error after ∧ error.blamesCaller = true ↔
        Misuse reader op error after) ∧
      (Misuse reader op error after →
        (after = reader ∨ ∃ token, peek reader = .ok token after) ∧
        ∀ later, answers later after = answers later reader) := by
  intro reader
  refine ⟨refused_run_iff (sound_attempts_ofBytes bytes earlier), fun h => ⟨h.leaves, ?_⟩⟩
  intro later
  rcases h.leaves with rfl | ⟨token, hpeek⟩
  · rfl
  · exact answers_of_peek later hpeek

/-- A string is asked for where a number comes next, whose name has not been taken.  The tag and the
name have left the bytes, and nobody sees it. -/
theorem misuse_unseen_string :
    ∃ object seen, attempts [.opens .object] (ofBytes [6, 1, 0, 1, 0x61, 7]) = object ∧
      Operation.string.run object = .error (.unexpected .string .number) seen ∧
      object.position = 1 ∧ seen.position = 5 ∧
      ∀ later, answers later seen = answers later object := by
  let seen : Reader := ⟨[7], 5, [.object], some .number, some "a"⟩
  have hrefused : Operation.string.run
      (attempts [.opens .object] (ofBytes [6, 1, 0, 1, 0x61, 7])) =
        .error (.unexpected .string .number) seen := rfl
  obtain ⟨hwrong, hunseen⟩ := misuse_unseen [6, 1, 0, 1, 0x61, 7] [.opens .object] .string
    (.unexpected .string .number) seen
  exact ⟨_, seen, rfl, hrefused, rfl, rfl, (hunseen (hwrong.mp ⟨hrefused, rfl⟩)).2⟩

end Wire.Reader

end RemoteCall
