/-
# Reading a wire stream

A reader stands somewhere in a byte string.  It holds the bytes not yet read, the offset of the
first of them, the open scopes (innermost first), the token it has looked ahead at and, inside an
object, the name of the entry that token begins.

Every operation answers or fails, and leaves a reader behind in both cases: after a failure a
caller may go on, and what it then sees is part of the behaviour.  Looking ahead consumes the tag
and, in an object, the name; taking the name and consuming the token are separate steps.

* `peek` looks ahead; `hasNext`, `nextName`, the scalar reads and the scope boundaries follow it.
* `untilEnd` runs a step for every value left in the innermost scope.  It goes round at most once
  for each unread byte, because each value takes at least one.
* `skip` consumes a value of any kind.
-/
import RemoteCall.Error

namespace RemoteCall.Wire

/-- A position in a byte string together with the nesting read so far. -/
structure Reader where
  /-- The bytes not yet read. -/
  rest : Bytes
  /-- The offset of the first unread byte. -/
  position : Nat
  /-- The open scopes, innermost first. -/
  scopes : List Scope
  /-- The token looked ahead at, until it is consumed. -/
  peeked : Option Token
  /-- The name of the entry looked ahead at, until it is taken. -/
  fieldName : Option String
  deriving DecidableEq, Repr

/-- An operation on a reader. -/
abbrev Read (α : Type) := EStateM Error Reader α

namespace Reader

/-- A reader at the start of a byte string. -/
def ofBytes (bytes : Bytes) : Reader := ⟨bytes, 0, [], none, none⟩

/-- The innermost open scope. -/
def scope? (reader : Reader) : Option Scope := reader.scopes.head?

/-- The number of open scopes. -/
def depth (reader : Reader) : Nat := reader.scopes.length

/-- Fails with a stream fault and leaves the reader as it is. -/
def fail {α : Type} (fault : StreamFault) : Read α := throw (.stream fault)

/-! ## 1. Bytes -/

/-- Takes exactly `count` bytes; takes none if fewer are left. -/
def take (count : Nat) : Read Bytes := fun reader =>
  let (head, tail) := reader.rest.splitAt count
  if head.length = count then
    .ok head { reader with rest := tail, position := reader.position + count }
  else
    .error (.stream (.truncated count reader.position reader.rest.length)) reader

/-- Takes a text whose size in bytes stands before it in `width` bytes. -/
def takeText (width : Nat) (fault : Utf8.Fault → StreamFault) : Read String := do
  let size ← take width
  let raw ← take size.toNat
  match Utf8.decode raw with
  | .ok text => return text
  | .error place => fail (fault place)

/-! ## 2. Looking ahead -/

/-- Why a token cannot stand in a scope: nothing is closed at top level, and inside a scope only
that scope is closed and the stream does not end. -/
def misplacement (scope : Option Scope) (token : Token) (position : Nat) : Option StreamFault :=
  match scope, token with
  | none, .endArray => some (.unbalanced .endArray)
  | none, .endObject => some (.unbalanced .endObject)
  | some .array, .endObject => some (.misplaced .endObject .array position)
  | some .array, .endOfStream => some (.misplaced .endOfStream .array position)
  | some .object, .endArray => some (.misplaced .endArray .object position)
  | some .object, .endOfStream => some (.misplaced .endOfStream .object position)
  | _, _ => none

/-- Takes the next tag.  Running out of bytes at top level reads as the end of the stream. -/
def nextTag : Read Token := do
  let reader ← get
  match reader.rest with
  | [] =>
    match reader.scope? with
    | none => return .endOfStream
    | some scope => fail (.endsInside scope reader.position)
  | tag :: rest =>
    match Token.ofTag? tag with
    | none => fail (.unknownTag tag reader.position)
    | some token =>
      match misplacement reader.scope? token reader.position with
      | some fault => fail fault
      | none =>
        set { reader with rest := rest, position := reader.position + 1 }
        return token

/-- Takes the name that follows the tag of an object entry. -/
def takeName (token : Token) : Read Unit := do
  if (← get).scope? = some .object ∧ token.startsValue then
    let name ← takeText 2 .nameNotUtf8
    modify fun reader => { reader with fieldName := some name }

/-- The kind of the next value.  Looking twice gives the same token and reads nothing more. -/
def peek : Read Token := do
  match (← get).peeked with
  | some token => return token
  | none =>
    let token ← nextTag
    takeName token
    modify fun reader => { reader with peeked := some token }
    return token

/-- Whether the current array, object or stream has more values. -/
def hasNext : Read Bool := do
  return (← peek).startsValue

/-- Takes the name of the next entry of an object. -/
def nextName : Read String := do
  if (← get).scope? = some .object then
    let token ← peek
    match (← get).fieldName with
    | some name =>
      modify fun reader => { reader with fieldName := none }
      return name
    | none => throw (.unexpected .fieldName token)
  else
    fail .nameOutsideObject

/-! ## 3. Values -/

/-- Consumes the token looked ahead at, which must be `token`, with its name taken. -/
def consume (token : Token) (expected : Expectation) : Read Unit := do
  let found ← peek
  if found = token then
    if (← get).fieldName.isNone then
      modify fun reader => { reader with peeked := none }
    else
      fail (.nameNotTaken token)
  else
    throw (.unexpected expected found)

/-- Reads a number. -/
def readNumber : Read Int64 := do
  consume .number .number
  return (← take 8).toInt64

/-- Reads a string. -/
def readString : Read String := do
  consume .string .string
  takeText 4 .textNotUtf8

/-- Reads a boolean. -/
def readBool : Read Bool := do
  consume .boolean .boolean
  let byte := (← take 1).headD 0
  if byte = 0 then return false
  else if byte = 1 then return true
  else fail (.invalidBoolean byte)

/-- Opens a scope unless the nesting is at its limit. -/
def push (scope : Scope) : Read Unit := do
  if (← get).depth < maxDepth then
    modify fun reader => { reader with scopes := scope :: reader.scopes }
  else
    fail .tooDeep

/-- Closes the innermost scope, which must be `scope` and have no values left. -/
def close (scope : Scope) : Read Unit := do
  if (← get).scope? = some scope then
    let found ← peek
    if found = scope.closing then
      modify fun reader => { reader with peeked := none, scopes := reader.scopes.tail }
    else
      fail (.unread scope found)
  else
    fail (.notOpen scope)

/-- Reads the start of an array. -/
def beginArray : Read Unit := do
  consume .beginArray .arrayStart
  push .array

/-- Reads the end of an array. -/
def endArray : Read Unit := close .array

/-- Reads the start of an object. -/
def beginObject : Read Unit := do
  consume .beginObject .objectStart
  push .object

/-- Reads the end of an object. -/
def endObject : Read Unit := close .object

/-- Consumes the end of the stream and returns the bytes after it. -/
def finish : Read Bytes := do
  match (← get).scope? with
  | some scope => fail (.unclosed scope)
  | none =>
    match ← peek with
    | .endOfStream => return (← get).rest
    | token => fail (.moreValues token)

/-! ## 4. Loops -/

/-- Runs `step` for the values left in the innermost scope, at most once more than `left` is
long. -/
def foldNext {α : Type} (step : α → Read α) : (left : Bytes) → α → Read α
  | [], state => do
    if ← hasNext then step state else return state
  | _ :: left, state => do
    if ← hasNext then
      let state ← step state
      foldNext step left state
    else
      return state

/-- Runs `step` for every value left in the innermost scope. -/
def untilEnd {α : Type} (step : α → Read α) (start : α) : Read α := do
  foldNext step (← get).rest start

/-- Reads every value left in the innermost scope with `item`, in order. -/
def items {α : Type} (item : Read α) : Read (List α) := do
  let reversed ← untilEnd (fun done => do return (← item) :: done) []
  return reversed.reverse

/-- Forgets the name of the entry looked ahead at. -/
def dropName : Read Unit := do
  if (← get).scope? = some .object then
    modify fun reader => { reader with fieldName := none }

/-- Consumes the next value, whatever its kind, nested at most `budget - 1` scopes deep. -/
def skipWithin : (budget : Nat) → Read Unit
  | 0 => fail .tooDeep
  | budget + 1 => do
    let token ← peek
    dropName
    match token with
    | .number => discard readNumber
    | .string => discard readString
    | .boolean => discard readBool
    | .beginArray =>
      beginArray
      untilEnd (fun _ => skipWithin budget) ()
      endArray
    | .beginObject =>
      beginObject
      untilEnd (fun _ => do discard nextName; skipWithin budget) ()
      endObject
    | token => throw (.unexpected .value token)

/-- Consumes the next value, whatever its kind.  Inside an object the name of its entry need not
have been taken. -/
def skip : Read Unit := skipWithin (maxDepth + 1)

/-- What `read` gives at the start of a byte string. -/
def onBytes {α : Type} (read : Read α) (bytes : Bytes) : Except Error α :=
  match read.run (ofBytes bytes) with
  | .ok value _ => .ok value
  | .error error _ => .error error

end Reader

end RemoteCall.Wire
