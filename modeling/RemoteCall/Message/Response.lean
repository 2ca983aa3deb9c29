/-
# Responses

A response is one object: a result code, a message and data, the last two optional.  Code zero
means success, and the data is what the method returns.  Any other code is a failure of the
application; the exchange itself succeeded.

A response is read in two passes.  The first reads code and message and skips the rest; only if the
code is zero a second pass reads the data, so data of a failure is never looked at and the order of
the fields does not matter.
-/
import RemoteCall.Typed.Adapter

namespace RemoteCall

open Wire

/-- A response whose data is a generic value. -/
structure Response where
  code : Int64
  message : Option String
  data : Option Value
  deriving Repr

namespace Response

/-! ## 1. Making responses -/

/-- A success with data; null counts as none. -/
def success (data : Value) : Response := ⟨0, none, if data.isNull then none else some data⟩

/-- A success without data. -/
def empty : Response := ⟨0, none, none⟩

/-- A failure of the application. -/
def failure (code : Int64) (message : String) : Response := ⟨code, some message, none⟩

/-- Whether the code means success. -/
def isSuccess (response : Response) : Bool := response.code == 0

/-- Writes the data unless it is null. -/
def writeData (data : Value) : Write Unit := do
  match data.token with
  | .error _ => pure ()
  | .ok token =>
    Writer.writeName "data" token
    data.write

/-- Writes a response. -/
def write (response : Response) : Write Unit := do
  Writer.beginObject
  Writer.writeName "code" .number
  Writer.writeNumber response.code
  match response.message with
  | some message =>
    Writer.writeName "message" .string
    Writer.writeString message
  | none => pure ()
  match response.data with
  | some data => writeData data
  | none => pure ()
  Writer.endObject

/-- The frame of a response. -/
def encode (response : Response) : Except Error Bytes := Writer.toBytes response.write

/-! ## 2. Reading responses -/

/-- The code and the message of a response. -/
structure Header where
  code : Int64
  message : Option String
  deriving DecidableEq, Repr

/-- Reads one field for the header; `found` is what earlier fields gave. -/
def readHeaderField (found : Option Int64 × Option String) :
    Read (Option Int64 × Option String) := do
  let name ← Reader.nextName
  if name = "code" then return (some (← Reader.readNumber), found.2)
  else if name = "message" then return (found.1, some (← Reader.readString))
  else
    Reader.skip
    return found

/-- Reads the header of a response that must end with its object. -/
def readHeader : Read Header := do
  Reader.beginObject
  let (code, message) ← Reader.untilEnd readHeaderField (none, none)
  Reader.endObject
  discard Reader.finish
  match code with
  | some code => return ⟨code, message⟩
  | none => throw (.value .noResultCode)

/-- Reads one field for the data. -/
def readDataField {α : Type} (read : Read α) (found : Option α) : Read (Option α) := do
  let name ← Reader.nextName
  if name = "data" then return some (← read)
  else
    Reader.skip
    return found

/-- Reads the data of a response with `read`. -/
def readData {α : Type} (read : Read α) : Read (Option α) := do
  Reader.beginObject
  let data ← Reader.untilEnd (readDataField read) none
  Reader.endObject
  return data

/-- The response of a frame, its data as a generic value. -/
def decode (frame : Bytes) : Except Error Response := do
  let header ← Reader.onBytes readHeader frame
  if header.code = 0 then
    return ⟨header.code, header.message, ← Reader.onBytes (readData Value.read) frame⟩
  else
    return ⟨header.code, header.message, none⟩

/-- The data of a frame as a value of a declared type.  Missing data is the type's absent value. -/
def decodeWith (adapter : Adapter) (frame : Bytes) : Except Error Datum := do
  let header ← Reader.onBytes readHeader frame
  if header.code = 0 then
    match ← Reader.onBytes (readData adapter.read) frame with
    | some datum => return datum
    | none => adapter.absent
  else
    .error (.application header.code (header.message.getD ""))

end Response

end RemoteCall
