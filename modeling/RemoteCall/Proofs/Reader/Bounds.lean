/-
# No access outside of the buffer

A reader holds the bytes not yet read, so there is nothing it could reach beyond them.  An
implementation holds the whole buffer and an offset and computes the indexes of what it reads, from
lengths that a hostile peer has chosen.  This module gives the operations in that form.  A `Cursor`
indexes the buffer (`byteAt`) and cuts slices out of it (`slice`), and an access that is out of
bounds ends the operation there and then (`Stop.outOfBounds`), whatever the caller would have made
of it.

Both do the same (`Tracks`): on any buffer, from any cursor inside it, an operation on the cursor
ends as it does on the reader that stands there, and so never out of bounds.  The cursor does not go
back and stays inside.  Only `take`, `nextTag`, `readBool` and `finish` touch the buffer; for the
others it is a matter of the rules by which operations are composed.  `Tracks` speaks of every
access that an operation makes, also in the middle of a value that is skipped.
-/
import RemoteCall.Proofs.Reader.Operations

namespace RemoteCall.Wire

open Success

/-- A position in a buffer, with what a reader remembers there. -/
structure Cursor where
  offset : Nat
  scopes : List Scope
  peeked : Option Token
  fieldName : Option String
  deriving DecidableEq, Repr

/-- Why an operation on a cursor ends without an answer. -/
inductive Stop where
  /-- The caller is told of an error. -/
  | refused (error : Error)
  /-- The buffer does not reach that far. -/
  | outOfBounds
  deriving DecidableEq, Repr

/-- An operation on a cursor. -/
abbrev Scan (α : Type) := EStateM Stop Cursor α

namespace Cursor

variable {α β : Type}

/-- A cursor at the start of a buffer. -/
def start : Cursor := ⟨0, [], none, none⟩

/-- Refuses the operation with an error. -/
def refuse (error : Error) : Scan α := throw (.refused error)

/-! ## 1. The operations on a buffer -/

section Operations

variable (buffer : Bytes)

/-- The byte at an index. -/
def byteAt (index : Nat) : Scan UInt8 :=
  match buffer[index]? with
  | some byte => return byte
  | none => throw .outOfBounds

/-- The bytes from one index up to another. -/
def slice (first stop : Nat) : Scan Bytes :=
  if first ≤ stop ∧ stop ≤ buffer.length then return buffer.extract first stop
  else throw .outOfBounds

/-- Takes exactly `count` bytes. -/
def take (count : Nat) : Scan Bytes := do
  let cursor ← get
  let stop := cursor.offset + count
  if stop ≤ buffer.length then
    let head ← slice buffer cursor.offset stop
    set { cursor with offset := stop }
    return head
  else
    refuse (.stream (.truncated count cursor.offset (buffer.length - cursor.offset)))

/-- Takes a text whose size stands before it. -/
def takeText (width : Nat) (fault : Utf8.Fault → StreamFault) : Scan String := do
  let size ← take buffer width
  let raw ← take buffer size.toNat
  match Utf8.decode raw with
  | .ok text => return text
  | .error place => refuse (.stream (fault place))

/-- Takes the next tag. -/
def nextTag : Scan Token := do
  let cursor ← get
  if buffer.length ≤ cursor.offset then
    match cursor.scopes.head? with
    | none => return .endOfStream
    | some scope => refuse (.stream (.endsInside scope cursor.offset))
  else
    let tag ← byteAt buffer cursor.offset
    match Token.ofTag? tag with
    | none => refuse (.stream (.unknownTag tag cursor.offset))
    | some token =>
      match Reader.misplacement cursor.scopes.head? token cursor.offset with
      | some fault => refuse (.stream fault)
      | none =>
        set { cursor with offset := cursor.offset + 1 }
        return token

/-- Takes the name that follows the tag of an object entry. -/
def takeName (token : Token) : Scan Unit := do
  if (← get).scopes.head? = some .object ∧ token.startsValue then
    let name ← takeText buffer 2 .nameNotUtf8
    modify fun cursor => { cursor with fieldName := some name }

def peek : Scan Token := do
  match (← get).peeked with
  | some token => return token
  | none =>
    let token ← nextTag buffer
    takeName buffer token
    modify fun cursor => { cursor with peeked := some token }
    return token

def hasNext : Scan Bool := do
  return (← peek buffer).startsValue

def nextName : Scan String := do
  if (← get).scopes.head? = some .object then
    let token ← peek buffer
    match (← get).fieldName with
    | some name =>
      modify fun cursor => { cursor with fieldName := none }
      return name
    | none => refuse (.unexpected .fieldName token)
  else
    refuse (.stream .nameOutsideObject)

def consume (token : Token) (expected : Expectation) : Scan Unit := do
  let found ← peek buffer
  if found = token then
    if (← get).fieldName.isNone then
      modify fun cursor => { cursor with peeked := none }
    else
      refuse (.stream (.nameNotTaken token))
  else
    refuse (.unexpected expected found)

def readNumber : Scan Int64 := do
  consume buffer .number .number
  return (← take buffer 8).toInt64

def readString : Scan String := do
  consume buffer .string .string
  takeText buffer 4 .textNotUtf8

def readBool : Scan Bool := do
  consume buffer .boolean .boolean
  match ← take buffer 1 with
  | [] => throw .outOfBounds
  | byte :: _ =>
    if byte = 0 then return false
    else if byte = 1 then return true
    else refuse (.stream (.invalidBoolean byte))

/-- Consumes the beginning of a scope and opens it. -/
def opens (opening : Token) (expected : Expectation) (scope : Scope) : Scan Unit := do
  consume buffer opening expected
  if (← get).scopes.length < maxDepth then
    modify fun cursor => { cursor with scopes := scope :: cursor.scopes }
  else
    refuse (.stream .tooDeep)

def close (scope : Scope) : Scan Unit := do
  if (← get).scopes.head? = some scope then
    let found ← peek buffer
    if found = scope.closing then
      modify fun cursor => { cursor with peeked := none, scopes := cursor.scopes.tail }
    else
      refuse (.stream (.unread scope found))
  else
    refuse (.stream (.notOpen scope))

def finish : Scan Bytes := do
  match (← get).scopes.head? with
  | some scope => refuse (.stream (.unclosed scope))
  | none =>
    match ← peek buffer with
    | .endOfStream =>
      let cursor ← get
      slice buffer (min cursor.offset buffer.length) buffer.length
    | token => refuse (.stream (.moreValues token))

/-- Runs `step` for the values left in the innermost scope, at most `left + 1` times. -/
def foldNext (step : α → Scan α) : (left : Nat) → α → Scan α
  | 0, state => do
    if ← hasNext buffer then step state else return state
  | left + 1, state => do
    if ← hasNext buffer then
      let state ← step state
      foldNext step left state
    else
      return state

/-- Runs `step` for every value left in the innermost scope. -/
def untilEnd (step : α → Scan α) (state : α) : Scan α := do
  foldNext buffer step (buffer.length - (← get).offset) state

def items (item : Scan α) : Scan (List α) := do
  let reversed ← untilEnd buffer (fun done => do return (← item) :: done) []
  return reversed.reverse

def dropName : Scan Unit := do
  if (← get).scopes.head? = some .object then
    modify fun cursor => { cursor with fieldName := none }

def skipWithin : (budget : Nat) → Scan Unit
  | 0 => refuse (.stream .tooDeep)
  | budget + 1 => do
    let token ← peek buffer
    dropName
    match token with
    | .number => discard (readNumber buffer)
    | .string => discard (readString buffer)
    | .boolean => discard (readBool buffer)
    | .beginArray =>
      opens buffer .beginArray .arrayStart .array
      untilEnd buffer (fun _ => skipWithin budget) ()
      close buffer .array
    | .beginObject =>
      opens buffer .beginObject .objectStart .object
      untilEnd buffer (fun _ => do discard (nextName buffer); skipWithin budget) ()
      close buffer .object
    | token => refuse (.unexpected .value token)

def readWithin : (budget : Nat) → Scan Value
  | 0 => refuse (.stream .tooDeep)
  | budget + 1 => do
    match ← peek buffer with
    | .number => return .integer (← readNumber buffer).toInt
    | .string => return .string (← readString buffer)
    | .boolean => return .bool (← readBool buffer)
    | .beginArray =>
      opens buffer .beginArray .arrayStart .array
      let items ← items buffer (readWithin budget)
      close buffer .array
      return .array items
    | .beginObject =>
      opens buffer .beginObject .objectStart .object
      let fields ← untilEnd buffer (fun (fields : Fields Value) => do
        let name ← nextName buffer
        let value ← readWithin budget
        return fields.insert name value) []
      close buffer .object
      return .object fields
    | token => refuse (.unexpected .value token)

end Operations

end Cursor

/-- The operation on a cursor. -/
def Reader.Operation.scan (buffer : Bytes) : Operation → Scan Reply
  | peek => do return .token (← Cursor.peek buffer)
  | hasNext => do return .more (← Cursor.hasNext buffer)
  | nextName => do return .name (← Cursor.nextName buffer)
  | number => do return .number (← Cursor.readNumber buffer)
  | string => do return .string (← Cursor.readString buffer)
  | boolean => do return .boolean (← Cursor.readBool buffer)
  | opens .array => do
    Cursor.opens buffer .beginArray .arrayStart .array
    return .done
  | opens .object => do
    Cursor.opens buffer .beginObject .objectStart .object
    return .done
  | closes scope => do
    Cursor.close buffer scope
    return .done
  | skip => do
    Cursor.skipWithin buffer (maxDepth + 1)
    return .done
  | value => do return .value (← Cursor.readWithin buffer (maxDepth + 1))
  | finish => do return .rest (← Cursor.finish buffer)

namespace Cursor

open Reader (Operation Reply)

variable {α β : Type} {buffer : Bytes}

/-- The cursor after a sequence of operations, whether they succeed or fail. -/
def attempts (buffer : Bytes) : List Operation → Cursor → Cursor
  | [], cursor => cursor
  | op :: ops, cursor => attempts buffer ops (effect (op.scan buffer) cursor).2

/-! ## 2. A cursor tracks a reader -/

/-- The reader that stands at a cursor. -/
def reader (buffer : Bytes) (cursor : Cursor) : Reader :=
  ⟨buffer.drop cursor.offset, cursor.offset, cursor.scopes, cursor.peeked, cursor.fieldName⟩

/-- How an operation on a cursor ends, in terms of readers.  Nothing if it is out of bounds. -/
def ending? (buffer : Bytes) :
    EStateM.Result Stop Cursor α → Option (EStateM.Result Error Reader α)
  | .ok a after => some (.ok a (after.reader buffer))
  | .error (.refused error) after => some (.error error (after.reader buffer))
  | .error .outOfBounds _ => none

/-- From this cursor the one operation ends as the other does on the reader that stands there.  The
cursor does not go back, and stays inside the buffer. -/
def TracksFrom (buffer : Bytes) (cursor : Cursor) (scan : Scan α) (read : Read α) : Prop :=
  ending? buffer (scan cursor) = some (read (cursor.reader buffer)) ∧
    cursor.offset ≤ (effect scan cursor).2.offset ∧ (effect scan cursor).2.offset ≤ buffer.length

/-- The one operation ends as the other does, from any cursor inside the buffer. -/
def Tracks (buffer : Bytes) (scan : Scan α) (read : Read α) : Prop :=
  ∀ cursor : Cursor, cursor.offset ≤ buffer.length → TracksFrom buffer cursor scan read

namespace TracksFrom

variable {cursor : Cursor}

theorem inside {x : Scan α} {y : Read α} (h : TracksFrom buffer cursor x y) :
    (effect x cursor).2.offset ≤ buffer.length :=
  h.2.2

/-- What is left behind is tracked as well. -/
theorem effect_eq {x : Scan α} {y : Read α} (h : TracksFrom buffer cursor x y) :
    (effect y (cursor.reader buffer)).2 = (effect x cursor).2.reader buffer := by
  have hend := h.1
  unfold effect
  cases hresult : x cursor with
  | ok a after =>
    rw [hresult] at hend
    rw [← Option.some.inj hend]
  | error stop after =>
    rw [hresult] at hend
    cases stop with
    | outOfBounds => cases hend
    | refused error => rw [← Option.some.inj hend]

theorem pure (h : cursor.offset ≤ buffer.length) (a : α) :
    TracksFrom buffer cursor (Pure.pure a) (Pure.pure a) :=
  ⟨rfl, Nat.le_refl _, h⟩

theorem refuse (h : cursor.offset ≤ buffer.length) (error : Error) :
    TracksFrom buffer cursor (refuse error : Scan α) (throw error) :=
  ⟨rfl, Nat.le_refl _, h⟩

/-- What the cursor remembers may change. -/
theorem modify {f : Cursor → Cursor} {g : Reader → Reader} (h : cursor.offset ≤ buffer.length)
    (hoffset : (f cursor).offset = cursor.offset)
    (hreader : (f cursor).reader buffer = g (cursor.reader buffer)) :
    TracksFrom buffer cursor (modify f : Scan PUnit) (modify g) :=
  ⟨congrArg (fun after => some (EStateM.Result.ok PUnit.unit after)) hreader, hoffset.ge,
    hoffset.trans_le h⟩

/-- **A chain tracks a chain** if its parts do; the later part may rely on the success of the
first. -/
theorem bind_of_ok {x : Scan α} {y : Read α} {f : α → Scan β} {g : α → Read β}
    (hx : TracksFrom buffer cursor x y)
    (hf : ∀ a (after : Cursor), after.offset ≤ buffer.length →
      y (cursor.reader buffer) = .ok a (after.reader buffer) →
      TracksFrom buffer after (f a) (g a)) :
    TracksFrom buffer cursor (x >>= f) (y >>= g) := by
  obtain ⟨hend, hle, hinside⟩ := hx
  cases hresult : x cursor with
  | ok a after =>
    rw [effect_eq_none_iff.mpr ⟨a, hresult⟩] at hle hinside
    rw [hresult] at hend
    have hy := (Option.some.inj hend).symm
    obtain ⟨hnext, hle', hinside'⟩ := hf a after hinside hy
    refine ⟨?_, ?_, ?_⟩
    · rw [Success.bind_of_ok hresult, hnext, Success.bind_of_ok hy]
    · rw [effect_bind_of_ok hresult]
      exact Nat.le_trans hle hle'
    · rw [effect_bind_of_ok hresult]
      exact hinside'
  | error stop after =>
    rw [effect_eq_some_iff.mpr hresult] at hle hinside
    rw [hresult] at hend
    rw [TracksFrom, effect_bind_of_error hresult]
    refine ⟨?_, hle, hinside⟩
    cases stop with
    | outOfBounds => cases hend
    | refused error =>
      have hy := (Option.some.inj hend).symm
      rw [bind_error.mpr (.inl hresult), bind_error.mpr (.inl hy)]
      rfl

theorem bind {x : Scan α} {y : Read α} {f : α → Scan β} {g : α → Read β}
    (hx : TracksFrom buffer cursor x y) (hf : ∀ a, Tracks buffer (f a) (g a)) :
    TracksFrom buffer cursor (x >>= f) (y >>= g) :=
  hx.bind_of_ok fun a after hinside _ => hf a after hinside

end TracksFrom

namespace Tracks

theorem pure (a : α) : Tracks buffer (Pure.pure a) (Pure.pure a) := fun _ h => .pure h a

theorem refuse (error : Error) : Tracks buffer (refuse error : Scan α) (throw error) :=
  fun _ h => .refuse h error

theorem bind {x : Scan α} {y : Read α} {f : α → Scan β} {g : α → Read β}
    (hx : Tracks buffer x y) (hf : ∀ a, Tracks buffer (f a) (g a)) :
    Tracks buffer (x >>= f) (y >>= g) :=
  fun cursor h => (hx cursor h).bind hf

theorem get_bind {f : Cursor → Scan α} {g : Reader → Read α}
    (h : ∀ cursor : Cursor, cursor.offset ≤ buffer.length →
      TracksFrom buffer cursor (f cursor) (g (cursor.reader buffer))) :
    Tracks buffer (get >>= f) (get >>= g) := h

theorem discard {x : Scan α} {y : Read α} (h : Tracks buffer x y) :
    Tracks buffer (discard x) (discard y) := by
  have hbind := h.bind fun _ => .pure PUnit.unit
  rwa [← discard_bind (x := x), ← discard_bind (x := y), bind_pure, bind_pure] at hbind

theorem ite {c : Prop} [Decidable c] {x x' : Scan α} {y y' : Read α} (h : Tracks buffer x y)
    (h' : Tracks buffer x' y') : Tracks buffer (if c then x else x') (if c then y else y') := by
  split
  · exact h
  · exact h'

end Tracks

/-! ## 3. The accesses -/

theorem reader_take {cursor : Cursor} {count : Nat}
    (h : cursor.offset + count ≤ buffer.length) :
    Reader.take count (cursor.reader buffer) =
      .ok (buffer.extract cursor.offset (cursor.offset + count))
        (Cursor.reader buffer { cursor with offset := cursor.offset + count }) := by
  refine Reader.take_ok.mpr ⟨buffer.drop (cursor.offset + count), ?_, ?_, rfl⟩
  · rw [List.extract_eq_take_drop, Nat.add_sub_cancel_left, ← List.drop_drop,
      List.take_append_drop]
  · rw [List.extract_eq_take_drop, List.length_take, List.length_drop]
    omega

/-- **A slice** is cut only after its end has been compared with that of the buffer. -/
theorem tracks_take (count : Nat) : Tracks buffer (take buffer count) (Reader.take count) := by
  intro cursor h
  by_cases hroom : cursor.offset + count ≤ buffer.length
  · have hscan : take buffer count cursor =
        .ok (buffer.extract cursor.offset (cursor.offset + count))
          { cursor with offset := cursor.offset + count } := by
      unfold take slice
      rw [Success.get_bind]
      rw [if_pos hroom, if_pos ⟨Nat.le_add_right _ _, hroom⟩]
      rfl
    refine ⟨?_, ?_⟩
    · rw [hscan, reader_take hroom]
      rfl
    · rw [effect_eq_none_iff.mpr ⟨_, hscan⟩]
      exact ⟨Nat.le_add_right _ _, hroom⟩
  · have hscan : take buffer count cursor = .error (.refused (.stream
        (.truncated count cursor.offset (buffer.length - cursor.offset)))) cursor := by
      unfold take
      rw [Success.get_bind]
      rw [if_neg hroom]
      rfl
    have hread : Reader.take count (cursor.reader buffer) = .error (.stream
        (.truncated count cursor.offset (buffer.length - cursor.offset)))
        (cursor.reader buffer) := by
      refine Reader.take_error.mpr ⟨?_, rfl, ?_⟩
      · rw [reader, List.length_drop]
      · rw [reader, List.length_drop]
        omega
    refine ⟨?_, ?_⟩
    · rw [hscan, hread]
      rfl
    · rw [effect_eq_some_iff.mpr hscan]
      exact ⟨Nat.le_refl _, h⟩

/-- **A tag** is read only in front of the end of the buffer. -/
theorem tracks_nextTag : Tracks buffer (nextTag buffer) Reader.nextTag := by
  refine .get_bind fun cursor h => ?_
  by_cases hend : buffer.length ≤ cursor.offset
  · have hrest : (cursor.reader buffer).rest = [] := List.drop_eq_nil_of_le hend
    rw [if_pos hend, hrest]
    show TracksFrom _ _ _ (match cursor.scopes.head? with | none => _ | some scope => _)
    cases cursor.scopes.head? with
    | none => exact .pure h _
    | some scope => exact .refuse h _
  · have hlt : cursor.offset < buffer.length := Nat.lt_of_not_le hend
    have hrest : (cursor.reader buffer).rest =
        buffer[cursor.offset] :: buffer.drop (cursor.offset + 1) :=
      List.drop_eq_getElem_cons hlt
    have hbyte : byteAt buffer cursor.offset = pure buffer[cursor.offset] := by
      rw [byteAt, List.getElem?_eq_getElem hlt]
    rw [if_neg hend, hrest, hbyte, pure_bind]
    dsimp only
    cases Token.ofTag? buffer[cursor.offset] with
    | none => exact .refuse h _
    | some token =>
      show TracksFrom _ _ _
        (match Reader.misplacement cursor.scopes.head? token cursor.offset with
          | some fault => _
          | none => _)
      dsimp only
      cases Reader.misplacement cursor.scopes.head? token cursor.offset with
      | some fault => exact .refuse h _
      | none => exact ⟨rfl, Nat.le_add_right _ _, hlt⟩

/-! ## 4. Every operation -/

theorem tracks_takeText (width : Nat) (fault : Utf8.Fault → StreamFault) :
    Tracks buffer (takeText buffer width fault) (Reader.takeText width fault) := by
  refine (tracks_take width).bind fun size => (tracks_take _).bind fun raw => ?_
  cases Utf8.decode raw with
  | ok text => exact .pure text
  | error place => exact .refuse _

theorem tracks_takeName (token : Token) :
    Tracks buffer (takeName buffer token) (Reader.takeName token) := by
  refine .get_bind fun cursor h => ?_
  by_cases hname : cursor.scopes.head? = some .object ∧ token.startsValue = true
  · rw [if_pos hname, if_pos (by exact hname)]
    refine (tracks_takeText _ _).bind (fun name after hinside => ?_) cursor h
    exact .modify hinside rfl rfl
  · rw [if_neg hname, if_neg (by exact hname)]
    exact .pure h _

theorem tracks_peek : Tracks buffer (peek buffer) Reader.peek := by
  refine .get_bind fun cursor h => ?_
  show TracksFrom _ _ _ (match cursor.peeked with | some token => _ | none => _)
  cases cursor.peeked with
  | some token => exact .pure h token
  | none =>
    refine tracks_nextTag.bind (fun token => (tracks_takeName token).bind fun _ => ?_) cursor h
    exact fun _ hnamed => (TracksFrom.modify hnamed rfl rfl).bind fun _ => .pure token

theorem tracks_hasNext : Tracks buffer (hasNext buffer) Reader.hasNext :=
  tracks_peek.bind fun _ => .pure _

theorem tracks_nextName : Tracks buffer (nextName buffer) Reader.nextName := by
  refine .get_bind fun cursor h => ?_
  by_cases hobject : cursor.scopes.head? = some .object
  · rw [if_pos hobject, if_pos (by exact hobject)]
    refine tracks_peek.bind (fun token => .get_bind fun seen hseen => ?_) cursor h
    show TracksFrom _ _ _ (match seen.fieldName with | some name => _ | none => _)
    cases seen.fieldName with
    | some name =>
      exact (TracksFrom.modify hseen rfl rfl).bind fun _ => .pure name
    | none => exact .refuse hseen _
  · rw [if_neg hobject, if_neg (by exact hobject)]
    exact .refuse h _

theorem tracks_consume (token : Token) (expected : Expectation) :
    Tracks buffer (consume buffer token expected) (Reader.consume token expected) := by
  refine tracks_peek.bind fun found => .ite (.get_bind fun cursor h => ?_) (.refuse _)
  by_cases hname : cursor.fieldName.isNone = true
  · rw [if_pos hname, if_pos (by exact hname)]
    exact .modify h rfl rfl
  · rw [if_neg hname, if_neg (by exact hname)]
    exact .refuse h _

theorem tracks_readNumber : Tracks buffer (readNumber buffer) Reader.readNumber :=
  (tracks_consume _ _).bind fun _ => (tracks_take 8).bind fun _ => .pure _

theorem tracks_readString : Tracks buffer (readString buffer) Reader.readString :=
  (tracks_consume _ _).bind fun _ => tracks_takeText _ _

/-- **The byte of a boolean** is there, because a slice of one byte has been cut. -/
theorem tracks_readBool : Tracks buffer (readBool buffer) Reader.readBool := by
  refine (tracks_consume _ _).bind fun _ cursor h => ?_
  refine (tracks_take 1 cursor h).bind_of_ok fun raw after hinside htake => ?_
  obtain ⟨_, -, hone, -⟩ := Reader.take_ok.mp htake
  obtain ⟨byte, rfl⟩ := List.length_eq_one_iff.mp hone
  exact Tracks.ite (.pure _) (.ite (.pure _) (.refuse _)) after hinside

theorem tracks_opens (opening : Token) (expected : Expectation) (scope : Scope) :
    Tracks buffer (opens buffer opening expected scope)
      (do Reader.consume opening expected; Reader.push scope) := by
  refine (tracks_consume opening expected).bind fun _ => .get_bind fun cursor h => ?_
  by_cases hroom : cursor.scopes.length < maxDepth
  · rw [if_pos hroom, if_pos (by exact hroom)]
    exact .modify h rfl rfl
  · rw [if_neg hroom, if_neg (by exact hroom)]
    exact .refuse h _

theorem tracks_close (scope : Scope) :
    Tracks buffer (close buffer scope) (Reader.close scope) := by
  refine .get_bind fun cursor h => ?_
  by_cases hscope : cursor.scopes.head? = some scope
  · rw [if_pos hscope, if_pos (by exact hscope)]
    refine tracks_peek.bind (fun found => .ite (fun seen hseen => ?_) (.refuse _)) cursor h
    exact .modify hseen rfl rfl
  · rw [if_neg hscope, if_neg (by exact hscope)]
    exact .refuse h _

/-- **What follows the stream** is the slice up to the end of the buffer. -/
theorem tracks_finish : Tracks buffer (finish buffer) Reader.finish := by
  refine .get_bind fun cursor h => ?_
  show TracksFrom _ _ _ (match cursor.scopes.head? with | some scope => _ | none => _)
  cases cursor.scopes.head? with
  | some scope => exact .refuse h _
  | none =>
    refine tracks_peek.bind (fun token => ?_) cursor h
    cases token
    case endOfStream =>
      refine .get_bind fun seen hseen => ?_
      have hslice : slice buffer (min seen.offset buffer.length) buffer.length =
          pure (buffer.drop seen.offset) := by
        rw [slice, Nat.min_eq_left hseen, if_pos ⟨hseen, Nat.le_refl _⟩,
          List.extract_eq_take_drop, List.take_of_length_le (by rw [List.length_drop])]
      rw [hslice]
      exact .pure hseen _
    all_goals exact .refuse _

/-- Loops track each other if their rounds do.  The induction is on the bound of the rounds. -/
theorem tracks_foldNext {step : α → Scan α} {step' : α → Read α}
    (h : ∀ a, Tracks buffer (step a) (step' a)) : ∀ (left : Bytes) (a : α),
    Tracks buffer (foldNext buffer step left.length a) (Reader.foldNext step' left a)
  | [], a => tracks_hasNext.bind fun _ => .ite (h a) (.pure a)
  | _ :: left, a =>
    tracks_hasNext.bind fun _ => .ite ((h a).bind (tracks_foldNext h left)) (.pure a)

theorem tracks_untilEnd {step : α → Scan α} {step' : α → Read α}
    (h : ∀ a, Tracks buffer (step a) (step' a)) (a : α) :
    Tracks buffer (untilEnd buffer step a) (Reader.untilEnd step' a) := by
  refine .get_bind fun cursor hinside => ?_
  have hleft : (buffer.drop cursor.offset).length = buffer.length - cursor.offset :=
    List.length_drop
  rw [← hleft]
  exact tracks_foldNext h _ a cursor hinside

theorem tracks_items {item : Scan α} {item' : Read α} (h : Tracks buffer item item') :
    Tracks buffer (items buffer item) (Reader.items item') :=
  (tracks_untilEnd (fun _ => h.bind fun _ => .pure _) []).bind fun _ => .pure _

theorem tracks_dropName : Tracks buffer dropName Reader.dropName := by
  refine .get_bind fun cursor h => ?_
  by_cases hobject : cursor.scopes.head? = some .object
  · rw [if_pos hobject, if_pos (by exact hobject)]
    exact .modify h rfl rfl
  · rw [if_neg hobject, if_neg (by exact hobject)]
    exact .pure h _

theorem tracks_skipWithin : ∀ budget,
    Tracks buffer (skipWithin buffer budget) (Reader.skipWithin budget)
  | 0 => .refuse _
  | budget + 1 => by
    have ih := tracks_skipWithin budget
    refine tracks_peek.bind fun token => tracks_dropName.bind fun _ => ?_
    cases token
    case number => exact tracks_readNumber.discard
    case string => exact tracks_readString.discard
    case boolean => exact tracks_readBool.discard
    case beginArray =>
      exact (tracks_opens _ _ _).bind fun _ => (tracks_untilEnd (fun _ => ih) ()).bind fun _ =>
        tracks_close _
    case beginObject =>
      exact (tracks_opens _ _ _).bind fun _ =>
        (tracks_untilEnd (fun _ => tracks_nextName.discard.bind fun _ => ih) ()).bind fun _ =>
          tracks_close _
    all_goals exact .refuse _

theorem tracks_readWithin : ∀ budget,
    Tracks buffer (readWithin buffer budget) (Value.readWithin budget)
  | 0 => .refuse _
  | budget + 1 => by
    have ih := tracks_readWithin budget
    refine tracks_peek.bind fun token => ?_
    cases token
    case number => exact tracks_readNumber.bind fun _ => .pure _
    case string => exact tracks_readString.bind fun _ => .pure _
    case boolean => exact tracks_readBool.bind fun _ => .pure _
    case beginArray =>
      exact (tracks_opens _ _ _).bind fun _ => (tracks_items ih).bind fun _ =>
        (tracks_close _).bind fun _ => .pure _
    case beginObject =>
      exact (tracks_opens _ _ _).bind fun _ =>
        (tracks_untilEnd (fun _ => tracks_nextName.bind fun _ => ih.bind fun _ => .pure _)
          []).bind fun _ => (tracks_close _).bind fun _ => .pure _
    all_goals exact .refuse _

/-- **Every operation on a cursor ends as the one on the reader does.** -/
theorem tracks_run (op : Operation) : Tracks buffer (op.scan buffer) op.run := by
  cases op
  case peek => exact tracks_peek.bind fun _ => .pure _
  case hasNext => exact tracks_hasNext.bind fun _ => .pure _
  case nextName => exact tracks_nextName.bind fun _ => .pure _
  case number => exact tracks_readNumber.bind fun _ => .pure _
  case string => exact tracks_readString.bind fun _ => .pure _
  case boolean => exact tracks_readBool.bind fun _ => .pure _
  case opens scope => cases scope <;> exact (tracks_opens _ _ _).bind fun _ => .pure _
  case closes scope => cases scope <;> exact (tracks_close _).bind fun _ => .pure _
  case skip => exact (tracks_skipWithin _).bind fun _ => .pure _
  case value => exact (tracks_readWithin _).bind fun _ => .pure _
  case finish => exact tracks_finish.bind fun _ => .pure _

/-! ## 5. Whatever is asked -/

/-- The cursor stands where the reader does, after the same operations. -/
theorem reader_attempts : ∀ (ops : List Operation) {cursor : Cursor},
    cursor.offset ≤ buffer.length →
    (attempts buffer ops cursor).offset ≤ buffer.length ∧
      Reader.attempts ops (cursor.reader buffer) = (attempts buffer ops cursor).reader buffer
  | [], _, h => ⟨h, rfl⟩
  | op :: ops, cursor, h => by
    have hop := tracks_run op cursor h
    rw [Reader.attempts, attempts, hop.effect_eq]
    exact reader_attempts ops hop.inside

/-- **A reader is safe on hostile input.**  Take any bytes, any sequence of operations that goes on
after each failure, and any operation after that.  With an offset into the buffer the operation ends
as it does on the reader, and without an access out of bounds.  The position does not go back and
stays inside the buffer, at most 512 scopes are open, and a name waits only inside an object while
the token looked at begins a value. -/
theorem attempts_safe (bytes : Bytes) (ops : List Operation) (op : Operation) :
    let reader := Reader.attempts ops (.ofBytes bytes)
    ending? bytes (op.scan bytes (attempts bytes ops start)) = some (op.run reader) ∧
      reader.position ≤ bytes.length ∧ reader.rest = bytes.drop reader.position ∧
      reader.position ≤ (effect op.run reader).2.position ∧
      reader.depth ≤ 512 ∧
      ∀ name, reader.fieldName = some name → reader.scope? = some .object ∧
        ∃ token, reader.peeked = some token ∧ token.startsValue = true := by
  intro reader
  obtain ⟨hinside, hreader⟩ :
      (attempts bytes ops start).offset ≤ bytes.length ∧
        reader = (attempts bytes ops start).reader bytes :=
    reader_attempts ops (Nat.zero_le _)
  have hop := tracks_run op _ hinside
  have hsound : reader.Sound := Reader.sound_attempts_ofBytes bytes ops
  refine ⟨?_, ?_, ?_, ?_, hsound.depth_le, hsound.named⟩
  · rw [hreader]
    exact hop.1
  · rw [hreader]
    exact hinside
  · rw [hreader]
    rfl
  · rw [hreader, hop.effect_eq]
    exact hop.2.1

/-- A string claims 4294967295 bytes where one is left: the size is taken, the slice is not cut. -/
example : Operation.string.scan [2, 0xff, 0xff, 0xff, 0xff, 0x61] start =
    .error (.refused (.stream (.truncated 4294967295 5 1))) ⟨5, [], none, none⟩ := rfl

end Cursor

end RemoteCall.Wire
