/-
# Generic values on the wire

`Value.read` takes the next value of a stream whatever its kind, `Value.write` writes one.  A null
field of an object is left out; elsewhere a null has no wire form.  Of several fields of one name
the last one read stands.

* `Value.dump` reads every value of a stream.
* `Value.writeScalars` writes the fields of a flat object of scalars into the open object.
-/
import RemoteCall.Value
import RemoteCall.Wire.Reader
import RemoteCall.Wire.Writer

namespace RemoteCall.Value

open Wire

/-! ## 1. Reading -/

/-- Reads the next value, nested at most `budget - 1` scopes deep. -/
def readWithin : (budget : Nat) → Read Value
  | 0 => Reader.fail .tooDeep
  | budget + 1 => do
    match ← Reader.peek with
    | .number => return .integer (← Reader.readNumber).toInt
    | .string => return .string (← Reader.readString)
    | .boolean => return .bool (← Reader.readBool)
    | .beginArray =>
      Reader.beginArray
      let items ← Reader.items (readWithin budget)
      Reader.endArray
      return .array items
    | .beginObject =>
      Reader.beginObject
      let fields ← Reader.untilEnd (fun (fields : Fields Value) => do
        let name ← Reader.nextName
        let value ← readWithin budget
        return fields.insert name value) []
      Reader.endObject
      return .object fields
    | token => throw (.unexpected .value token)

/-- Reads the next value, whatever its kind. -/
def read : Read Value := readWithin (maxDepth + 1)

/-- Reads every value of a stream up to its end. -/
def readAll : Read (List Value) := do
  let values ← Reader.items read
  discard Reader.finish
  return values

/-- The values of an encoded stream. -/
def dump (bytes : Bytes) : Except Error (List Value) := Reader.onBytes readAll bytes

/-! ## 2. Writing -/

/-- The token a value starts with. -/
def token : Value → Except Error Token
  | .null => .error (.value .nullToken)
  | .bool _ => .ok .boolean
  | .integer _ | .fraction _ => .ok .number
  | .string _ => .ok .string
  | .array _ => .ok .beginArray
  | .object _ => .ok .beginObject

mutual

/-- Writes a value. -/
def write : Value → Write Unit
  | .null => throw (.value .nullValue)
  | .bool b => Writer.writeBool b
  | .integer n =>
    match toInt64? n with
    | some word => Writer.writeNumber word
    | none => throw (.value (.notInteger (kind (.integer n))))
  | .fraction literal => throw (.value (.notInteger (kind (.fraction literal))))
  | .string text => Writer.writeString text
  | .array items => do
    Writer.beginArray
    writeItems items
    Writer.endArray
  | .object fields => do
    Writer.beginObject
    writeFields fields
    Writer.endObject

/-- Writes values one after the other. -/
def writeItems : List Value → Write Unit
  | [] => pure ()
  | item :: items => do
    write item
    writeItems items

/-- Writes the fields that are not null into the open object. -/
def writeFields : List (String × Value) → Write Unit
  | [] => pure ()
  | (name, value) :: fields => do
    match token value with
    | .error _ => pure ()
    | .ok token =>
      Writer.writeName name token
      write value
    writeFields fields

end

/-- The value written as a whole stream. -/
def encode (value : Value) : Except Error Bytes := Writer.toBytes (write value)

/-- Writes one field of a flat object: null is left out, an array or object refused. -/
def writeScalar (name : String) : Value → Write Unit
  | .null => pure ()
  | .string text => do
    Writer.writeName name .string
    Writer.writeString text
  | .bool b => do
    Writer.writeName name .boolean
    Writer.writeBool b
  | .integer n =>
    match toInt64? n with
    | some word => do
      Writer.writeName name .number
      Writer.writeNumber word
    | none => throw (.value (.notScalar name (kind (.integer n))))
  | value => throw (.value (.notScalar name value.kind))

/-- Writes a flat object of scalars as fields of the open object. -/
def writeScalars (fields : Fields Value) : Write Unit :=
  fields.forM fun (name, value) => writeScalar name value

end RemoteCall.Value
