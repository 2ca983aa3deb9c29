/-
# Requests

A request is a stream of two values, the method's name and an object of parameters, followed by an
optional payload of raw bytes.  The stream ends itself, so the payload needs no length: whatever
stands after the end of the stream is the payload.

`Request.build` encodes a request, `ReceivedRequest.decode` is what the receiving side makes of its
frame.
-/
import RemoteCall.Value.Codec

namespace RemoteCall

open Wire

/-- An encoded request. -/
structure Request where
  method : String
  /-- The stream of the method's name and the parameters. -/
  body : Bytes
  payload : Option Bytes
  deriving DecidableEq, Repr

namespace Request

/-- Encodes a request; `writeParameters` writes the fields of the parameter object. -/
def build (method : String) (writeParameters : Write Unit) : Except Error Request := do
  let body ← Writer.toBytes do
    Writer.writeString method
    Writer.beginObject
    writeParameters
    Writer.endObject
  return ⟨method, body, none⟩

/-- Encodes a request with scalar parameters.  Those that are null are left out. -/
def ofParameters (method : String) (parameters : Fields Value) : Except Error Request :=
  build method (Value.writeScalars parameters)

/-- The request with a payload. -/
def withPayload (request : Request) (payload : Bytes) : Request :=
  { request with payload := some payload }

/-- The bytes that are sent. -/
def frame (request : Request) : Bytes := request.body ++ request.payload.getD []

end Request

/-- A request as the receiving side sees it. -/
structure ReceivedRequest where
  method : String
  parameters : Fields Value
  payload : Bytes
  deriving Repr

namespace ReceivedRequest

/-- Reads the method's name, the parameters and the payload. -/
def read : Read ReceivedRequest := do
  let method ← Reader.readString
  match ← Value.read with
  | .object parameters =>
    let payload ← Reader.finish
    return ⟨method, parameters, payload⟩
  | value => throw (.value (.parametersNotObject value.kind))

/-- The request of a frame. -/
def decode (frame : Bytes) : Except Error ReceivedRequest := Reader.onBytes read frame

/-- The parameter of a name. -/
def parameter? (request : ReceivedRequest) (name : String) : Option Value :=
  request.parameters.get? name

end ReceivedRequest

end RemoteCall
