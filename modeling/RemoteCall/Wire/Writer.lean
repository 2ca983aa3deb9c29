/-
# Writing a wire stream

A writer holds the bytes written so far, the open scopes (innermost first) and, inside an object,
the token that the last name announced.  Inside an object every value is announced: `writeName`
emits the tag and the name, and the value written next must be of the announced kind.

As with the reader, every operation leaves a writer behind, also when it fails.
-/
import RemoteCall.Error

namespace RemoteCall.Wire

/-- The bytes written so far together with the nesting they stand in. -/
structure Writer where
  /-- The bytes written. -/
  out : Array UInt8
  /-- The open scopes, innermost first. -/
  scopes : List Scope
  /-- The kind of value that the last name announced and that is still missing. -/
  announced : Option Token
  deriving DecidableEq, Repr

/-- An operation on a writer. -/
abbrev Write (α : Type) := EStateM Error Writer α

namespace Writer

/-- A writer that has written nothing. -/
def new : Writer := ⟨#[], [], none⟩

/-- The innermost open scope. -/
def scope? (writer : Writer) : Option Scope := writer.scopes.head?

/-- The number of open scopes. -/
def depth (writer : Writer) : Nat := writer.scopes.length

/-- The bytes written so far. -/
def bytes (writer : Writer) : Bytes := writer.out.toList

/-- Fails with a stream fault and leaves the writer as it is. -/
def fail {α : Type} (fault : StreamFault) : Write α := throw (.stream fault)

/-- Appends bytes. -/
def emit (bytes : Bytes) : Write Unit :=
  modify fun writer => { writer with out := writer.out ++ bytes }

/-- Writes the tag and the name of an object entry whose value will be of kind `token`. -/
def writeName (name : String) (token : Token) : Write Unit := do
  let writer ← get
  if writer.scope? = some .object then
    match writer.announced with
    | some announced => fail (.nameWhilePending name announced)
    | none =>
      if token.startsValue then
        if name.utf8ByteSize < UInt16.size then
          emit (token.tag :: Bytes.bigEndian 2 name.utf8ByteSize)
          emit (Bytes.ofString name)
          modify fun writer => { writer with announced := some token }
        else
          throw (.value (.nameTooLong name.utf8ByteSize))
      else
        fail (.nameForNoValue name token)
  else
    fail (.nameWrittenOutside name)

/-- Begins a value: outside of an object by its tag, inside one by using up the announcement, which
must be of the same kind. -/
def openValue (token : Token) : Write Unit := do
  let writer ← get
  if writer.scope? = some .object then
    modify fun writer => { writer with announced := none }
    match writer.announced with
    | some announced =>
      if announced = token then pure () else fail (.announcedOther announced token)
    | none => fail (.valueWithoutName token)
  else
    emit [token.tag]

/-- Writes a number. -/
def writeNumber (n : Int64) : Write Unit := do
  openValue .number
  emit (Bytes.ofInt64 n)

/-- Writes a string. -/
def writeString (text : String) : Write Unit := do
  if text.utf8ByteSize < UInt32.size then
    openValue .string
    emit (Bytes.bigEndian 4 text.utf8ByteSize)
    emit (Bytes.ofString text)
  else
    throw (.value (.textTooLong text.utf8ByteSize))

/-- Writes a boolean. -/
def writeBool (b : Bool) : Write Unit := do
  openValue .boolean
  emit [if b then 1 else 0]

/-- Opens a scope unless the nesting is at its limit. -/
def push (scope : Scope) : Write Unit := do
  if (← get).depth < maxDepth then
    modify fun writer => { writer with scopes := scope :: writer.scopes }
  else
    fail .tooDeep

/-- Closes the innermost scope, which must be `scope` with no value announced. -/
def close (scope : Scope) : Write Unit := do
  let writer ← get
  if writer.scope? = some scope then
    match writer.announced with
    | some announced => fail (.closedWhilePending scope announced)
    | none =>
      emit [scope.closing.tag]
      modify fun writer => { writer with scopes := writer.scopes.tail }
  else
    fail (.notOpen scope)

/-- Writes the start of an array. -/
def beginArray : Write Unit := do
  openValue .beginArray
  push .array

/-- Writes the end of an array. -/
def endArray : Write Unit := close .array

/-- Writes the start of an object. -/
def beginObject : Write Unit := do
  openValue .beginObject
  push .object

/-- Writes the end of an object. -/
def endObject : Write Unit := close .object

/-- Ends the stream and returns its bytes. -/
def finish : Write Bytes := do
  let writer ← get
  match writer.scope? with
  | some scope => fail (.unclosed scope)
  | none => return writer.bytes ++ [Token.endOfStream.tag]

/-- The bytes of the stream that `write` writes on a new writer. -/
def toBytes (write : Write Unit) : Except Error Bytes :=
  match (do write; finish).run new with
  | .ok bytes _ => .ok bytes
  | .error error _ => .error error

end Writer

end RemoteCall.Wire
