/-
# Whatever is asked of a reader

The bytes come from a peer and the calls from a caller who need not follow any protocol: operations
in any order, going on with the same reader after each failure.  `Operation` lists what a caller can
ask for, `attempts` is the reader left after a sequence of such calls, and `answers` what the caller
sees of it.

Two facts hold of every reader that comes up so (`sound_attempts`).  The nesting is within its
limit, and a name waits to be taken only inside an object, in front of the value that it names.
Neither is a matter of success: a scope that is refused has used up its token, and the name of an
entry may be cut off after its tag has been taken.  So the invariant is shown operation by
operation, for both outcomes.  Inside an operation it may be broken for a moment: between the name
and the token of a look ahead, and between the token of a scope and the scope.  These steps are
therefore treated as one (`sound_peek`, `sound_opens`).
-/
import RemoteCall.Proofs.Outcome
import RemoteCall.Proofs.Reader.Peeking
import RemoteCall.Value.Codec

namespace RemoteCall.Wire.Reader

open Success

/-! ## 1. Operations and what is seen of them -/

/-- What a caller can ask of a reader. -/
inductive Operation where
  | peek
  | hasNext
  | nextName
  | number
  | string
  | boolean
  | opens (scope : Scope)
  | closes (scope : Scope)
  | skip
  /-- A value of any kind, as a generic one. -/
  | value
  /-- The bytes after the end of the stream. -/
  | finish
  deriving DecidableEq, Repr

/-- What an operation answers.  Boundaries and skipped values answer nothing. -/
inductive Reply where
  | token (token : Token)
  | more (b : Bool)
  | name (text : String)
  | number (n : Int64)
  | string (text : String)
  | boolean (b : Bool)
  | value (value : Value)
  | rest (bytes : Bytes)
  | done
  deriving Repr

namespace Operation

/-- The operation on a reader. -/
def run : Operation → Read Reply
  | peek => do return .token (← Reader.peek)
  | hasNext => do return .more (← Reader.hasNext)
  | nextName => do return .name (← Reader.nextName)
  | number => do return .number (← readNumber)
  | string => do return .string (← readString)
  | boolean => do return .boolean (← readBool)
  | opens .array => do
    beginArray
    return .done
  | opens .object => do
    beginObject
    return .done
  | closes .array => do
    endArray
    return .done
  | closes .object => do
    endObject
    return .done
  | skip => do
    Reader.skip
    return .done
  | value => do return .value (← Value.read)
  | finish => do return .rest (← Reader.finish)

/-- What the caller sees of an operation. -/
def answer (op : Operation) (reader : Reader) : Except Error Reply :=
  match op.run reader with
  | .ok reply _ => .ok reply
  | .error error _ => .error error

end Operation

/-- The reader after a sequence of operations, whether they succeed or fail. -/
def attempts : List Operation → Reader → Reader
  | [], reader => reader
  | op :: ops, reader => attempts ops (effect op.run reader).2

/-- What is seen of a sequence of operations, first to last. -/
def answers : List Operation → Reader → List (Except Error Reply)
  | [], _ => []
  | op :: ops, reader => op.answer reader :: answers ops (effect op.run reader).2

/-! ## 2. The invariant -/

/-- The nesting is within its limit, and a name waits only in front of the value that it names. -/
structure Sound (reader : Reader) : Prop where
  depth_le : reader.depth ≤ maxDepth
  named : ∀ name, reader.fieldName = some name → reader.scope? = some .object ∧
    ∃ token, reader.peeked = some token ∧ token.startsValue = true

variable {α : Type} {token : Token} {before after : Reader} {error : Error}

theorem sound_ofBytes (bytes : Bytes) : Sound (ofBytes bytes) :=
  ⟨Nat.zero_le _, fun _ h => by cases h⟩

/-- Where no name waits only the nesting counts. -/
theorem Sound.of_unnamed (hdepth : after.depth ≤ maxDepth) (hname : after.fieldName = none) :
    Sound after :=
  ⟨hdepth, fun name h => by rw [hname] at h; cases h⟩

theorem Sound.moved (h : Sound before) (hmoved : Moved before after) : Sound after := by
  obtain ⟨rest, position, -, rfl⟩ := hmoved
  exact ⟨h.depth_le, h.named⟩

/-- Before one has looked ahead no name waits. -/
theorem Sound.unnamed_of_unpeeked (h : Sound before) (hpeeked : before.peeked = none) :
    before.fieldName = none := by
  cases hname : before.fieldName with
  | none => rfl
  | some name =>
    obtain ⟨-, token, hsome, -⟩ := h.named name hname
    rw [hpeeked] at hsome
    cases hsome

/-- In front of the end of a scope no name waits. -/
theorem Sound.unnamed_of_end (h : Sound before) (hpeeked : before.peeked = some token)
    (hend : token.startsValue = false) : before.fieldName = none := by
  cases hname : before.fieldName with
  | none => rfl
  | some name =>
    obtain ⟨-, found, hsome, hvalue⟩ := h.named name hname
    rw [hpeeked] at hsome
    cases hsome
    rw [hend] at hvalue
    cases hvalue

/-! ## 3. Every operation keeps it -/

theorem sound_take (count : Nat) : Keeps Sound (take count) := by
  intro before h
  cases htake : take count before with
  | ok head after =>
    rw [effect_eq_none_iff.mpr ⟨head, htake⟩]
    exact h.moved (moved_take htake)
  | error error after =>
    rw [effect_eq_some_iff.mpr htake]
    obtain ⟨-, rfl, -⟩ := take_error.mp htake
    exact h

theorem sound_fail (fault : StreamFault) : Keeps Sound (fail fault : Read α) := .throw _

theorem sound_takeText (width : Nat) (fault : Utf8.Fault → StreamFault) :
    Keeps Sound (takeText width fault) := by
  unfold takeText
  refine (sound_take width).bind fun size => (sound_take _).bind fun raw => ?_
  cases Utf8.decode raw with
  | ok text => exact .pure text
  | error place => exact sound_fail _

/-- **A look ahead** takes a name only in front of a value of an object. -/
theorem sound_peek : Keeps Sound peek := by
  rintro ⟨bytes, position, scopes, peeked, fieldName⟩ h
  cases hpeek : peek ⟨bytes, position, scopes, peeked, fieldName⟩ with
  | error error after =>
    rw [effect_eq_some_iff.mpr hpeek]
    obtain ⟨-, ⟨-, rfl⟩ | ⟨-, rest, position', hlt, rfl⟩⟩ := peek_error hpeek
    · exact h
    · exact h.moved ⟨rest, position', Nat.le_of_lt hlt, rfl⟩
  | ok token after =>
    rw [effect_eq_none_iff.mpr ⟨token, hpeek⟩]
    cases peeked with
    | some found =>
      obtain ⟨-, rfl⟩ := peek_of_peeked.mp hpeek
      exact h
    | none =>
      obtain rfl : fieldName = none := h.unnamed_of_unpeeked rfl
      rcases peek_ok.mp hpeek with ⟨name?, rest, hvalue, hnames, -, rfl⟩ | ⟨rest, -, -, rfl⟩
      · refine ⟨h.depth_le, fun name hname => ⟨hnames.mp ?_, token, rfl, hvalue⟩⟩
        cases name? with
        | none => cases hname
        | some found => rfl
      · exact .of_unnamed h.depth_le rfl

theorem sound_hasNext : Keeps Sound hasNext := sound_peek.bind fun _ => .pure _

theorem sound_dropName : Keeps Sound dropName := by
  refine .get_bind fun before h => ?_
  split
  · exact .of_unnamed h.depth_le rfl
  · exact h

theorem sound_nextName : Keeps Sound nextName := by
  refine .get_bind fun before h => ?_
  split
  · refine sound_peek.bind (fun token => .get_bind fun seen hseen => ?_) before h
    cases seen.fieldName with
    | some name => exact .of_unnamed hseen.depth_le rfl
    | none => exact hseen
  · exact h

/-- A token is consumed only when no name waits. -/
theorem sound_consume (token : Token) (expected : Expectation) :
    Keeps Sound (consume token expected) := by
  refine sound_peek.bind fun found => .ite (.get_bind fun seen hseen => ?_) (.throw _)
  split
  · rename_i hname
    exact .of_unnamed hseen.depth_le (Option.isNone_iff_eq_none.mp hname)
  · exact hseen

theorem unnamed_of_consume {expected : Expectation} {u : Unit}
    (h : consume token expected before = .ok u after) : after.fieldName = none := by
  obtain ⟨found, seen, -, h⟩ := bind_ok.mp h
  split at h
  · rw [get_bind] at h
    split at h
    · rename_i hname
      obtain rfl := modify_ok.mp h
      exact Option.isNone_iff_eq_none.mp hname
    · exact (fail_ok.mp h).elim
  · exact (throw_ok.mp h).elim

/-- **A scope** opens within the limit, and where no name waits. -/
theorem sound_opens (opening : Token) (expected : Expectation) (scope : Scope) :
    Keeps Sound (do consume opening expected; push scope) := by
  refine (sound_consume opening expected).bind_of_ok fun before u after hbefore h => ?_
  have hafter := (sound_consume opening expected).of_ok hbefore h
  unfold push
  rw [effect_get_bind]
  split
  · rename_i hroom
    have hname : after.fieldName = none := unnamed_of_consume h
    exact Sound.of_unnamed hroom hname
  · exact hafter

/-- A scope closes in front of its end, where no name waits. -/
theorem sound_close (scope : Scope) : Keeps Sound (close scope) := by
  refine .get_bind fun before h => ?_
  split
  · refine sound_peek.bind_of_ok (fun before found seen h hpeek => ?_) before h
    have hseen := sound_peek.of_ok h hpeek
    split
    · rename_i hfound
      show Sound { seen with peeked := none, scopes := seen.scopes.tail }
      refine .of_unnamed ?_ (hseen.unnamed_of_end (peeked_of_peek hpeek) ?_)
      · exact Nat.le_trans (by simp [depth]) hseen.depth_le
      · rw [hfound]
        cases scope <;> rfl
    · exact hseen
  · exact h

theorem sound_readNumber : Keeps Sound readNumber :=
  (sound_consume _ _).bind fun _ => (sound_take 8).bind fun _ => .pure _

theorem sound_readString : Keeps Sound readString :=
  (sound_consume _ _).bind fun _ => sound_takeText _ _

theorem sound_readBool : Keeps Sound readBool :=
  (sound_consume _ _).bind fun _ => (sound_take 1).bind fun _ =>
    .ite (.pure _) (.ite (.pure _) (sound_fail _))

theorem sound_finish : Keeps Sound finish := by
  refine .get_bind fun before h => ?_
  cases before.scope? with
  | some scope => exact h
  | none =>
    refine sound_peek.bind (fun token => ?_) before h
    cases token
    case endOfStream => exact .get_bind fun _ h => h
    all_goals exact sound_fail _

/-- A loop keeps what its rounds keep.  The induction is on the bound of the rounds. -/
theorem sound_foldNext {step : α → Read α} (hstep : ∀ a, Keeps Sound (step a)) :
    ∀ (left : Bytes) (a : α), Keeps Sound (foldNext step left a)
  | [], a => sound_hasNext.bind fun _ => .ite (hstep a) (.pure a)
  | _ :: left, a =>
    sound_hasNext.bind fun _ => .ite ((hstep a).bind (sound_foldNext hstep left)) (.pure a)

theorem sound_untilEnd {step : α → Read α} (hstep : ∀ a, Keeps Sound (step a)) (a : α) :
    Keeps Sound (untilEnd step a) :=
  .get_bind fun before h => sound_foldNext hstep before.rest a before h

theorem sound_items {item : Read α} (h : Keeps Sound item) : Keeps Sound (items item) :=
  (sound_untilEnd (fun _ => h.bind fun _ => .pure _) _).bind fun _ => .pure _

theorem sound_skipWithin : ∀ budget, Keeps Sound (skipWithin budget)
  | 0 => sound_fail _
  | budget + 1 => by
    have ih := sound_skipWithin budget
    refine sound_peek.bind fun token => sound_dropName.bind fun _ => ?_
    cases token
    case number => exact sound_readNumber.discard
    case string => exact sound_readString.discard
    case boolean => exact sound_readBool.discard
    case beginArray =>
      exact (sound_opens _ _ _).bind fun _ => (sound_untilEnd (fun _ => ih) ()).bind fun _ =>
        sound_close _
    case beginObject =>
      have hstep (_ : Unit) : Keeps Sound (do discard nextName; skipWithin budget) :=
        sound_nextName.discard.bind fun _ => ih
      exact (sound_opens _ _ _).bind fun _ => (sound_untilEnd hstep ()).bind fun _ => sound_close _
    all_goals exact .throw _

theorem sound_readWithin : ∀ budget, Keeps Sound (Value.readWithin budget)
  | 0 => sound_fail _
  | budget + 1 => by
    have ih := sound_readWithin budget
    refine sound_peek.bind fun token => ?_
    cases token
    case number => exact sound_readNumber.bind fun _ => .pure _
    case string => exact sound_readString.bind fun _ => .pure _
    case boolean => exact sound_readBool.bind fun _ => .pure _
    case beginArray =>
      exact (sound_opens _ _ _).bind fun _ => (sound_items ih).bind fun _ =>
        (sound_close _).bind fun _ => .pure _
    case beginObject =>
      have hstep (fields : Fields Value) : Keeps Sound (do
          let name ← nextName
          let value ← Value.readWithin budget
          return fields.insert name value) :=
        sound_nextName.bind fun _ => ih.bind fun _ => .pure _
      exact (sound_opens _ _ _).bind fun _ => (sound_untilEnd hstep []).bind fun _ =>
        (sound_close _).bind fun _ => .pure _
    all_goals exact .throw _

/-- **Every operation keeps the invariant**, successful or not. -/
theorem sound_run (op : Operation) : Keeps Sound op.run := by
  cases op
  case peek => exact sound_peek.bind fun _ => .pure _
  case hasNext => exact sound_hasNext.bind fun _ => .pure _
  case nextName => exact sound_nextName.bind fun _ => .pure _
  case number => exact sound_readNumber.bind fun _ => .pure _
  case string => exact sound_readString.bind fun _ => .pure _
  case boolean => exact sound_readBool.bind fun _ => .pure _
  case opens scope => cases scope <;> exact (sound_opens _ _ _).bind fun _ => .pure _
  case closes scope => cases scope <;> exact (sound_close _).bind fun _ => .pure _
  case skip => exact (sound_skipWithin _).bind fun _ => .pure _
  case value => exact (sound_readWithin _).bind fun _ => .pure _
  case finish => exact sound_finish.bind fun _ => .pure _

theorem sound_attempts : ∀ (ops : List Operation) {reader : Reader}, Sound reader →
    Sound (attempts ops reader)
  | [], _, h => h
  | op :: ops, reader, h => sound_attempts ops (sound_run op reader h)

/-- **Whatever was asked of it**, a reader of any bytes is sound. -/
theorem sound_attempts_ofBytes (bytes : Bytes) (ops : List Operation) :
    Sound (attempts ops (ofBytes bytes)) :=
  sound_attempts ops (sound_ofBytes bytes)

end RemoteCall.Wire.Reader
