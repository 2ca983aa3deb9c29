/-
# Frames

A message travels as a frame: its length in four bytes, most significant first, and then its bytes.
Messages above a size limit are refused on both ends, on reading before any byte of the message is
taken, so that a length alone cannot ask for more memory than the limit allows.

The byte stream underneath is seen through what its reads and writes give: a source is the list of
what the reads will meet, a sink knows how many bytes it still takes and how its writes fail then.
-/
import RemoteCall.Error

namespace RemoteCall.Transport

/-! ## 1. Input and output errors -/

/-- The kinds of input and output errors that frames tell apart. -/
inductive IoKind where
  | timedOut
  | wouldBlock
  | connectionReset
  | connectionAborted
  | notConnected
  | brokenPipe
  | unexpectedEnd
  /-- The operation may simply be tried again. -/
  | interrupted
  | writeZero
  | other
  deriving DecidableEq, Repr

namespace IoKind

/-- The name of a kind. -/
def name : IoKind → String
  | timedOut => "TimedOut"
  | wouldBlock => "WouldBlock"
  | connectionReset => "ConnectionReset"
  | connectionAborted => "ConnectionAborted"
  | notConnected => "NotConnected"
  | brokenPipe => "BrokenPipe"
  | unexpectedEnd => "UnexpectedEof"
  | interrupted => "Interrupted"
  | writeZero => "WriteZero"
  | other => "Other"

/-- All kinds. -/
def all : List IoKind :=
  [timedOut, wouldBlock, connectionReset, connectionAborted, notConnected, brokenPipe,
    unexpectedEnd, interrupted, writeZero, other]

/-- The kind of a name. -/
def ofName? (text : String) : Option IoKind := all.find? (·.name == text)

end IoKind

/-- An input or output error with its wording. -/
structure IoError where
  kind : IoKind
  text : String
  deriving DecidableEq, Repr

/-! ## 2. Sources -/

/-- What a read meets: bytes, or an error. -/
inductive Chunk where
  | bytes (bytes : Bytes)
  | fault (error : IoError)
  deriving DecidableEq, Repr

/-- What the reads of a stream will meet, in order; nothing means the end of the stream. -/
abbrev Source := List Chunk

namespace Source

/-- The bytes that are left. -/
def left (source : Source) : Nat :=
  source.foldr (fun chunk left =>
    match chunk with
    | .bytes bytes => bytes.length + left
    | .fault _ => left) 0

/-- Reads exactly `count` bytes.  An interrupted read is tried again; any other error, and the end of
the stream, lose the bytes read so far. -/
def readExact (count : Nat) : Source → Except IoError Bytes × Source
  | [] =>
    if count = 0 then (.ok [], [])
    else (.error ⟨.unexpectedEnd, "failed to fill whole buffer"⟩, [])
  | .fault error :: source =>
    if count = 0 then (.ok [], .fault error :: source)
    else if error.kind = .interrupted then readExact count source
    else (.error error, source)
  | .bytes bytes :: source =>
    if count = 0 then (.ok [], .bytes bytes :: source)
    else if count < bytes.length then (.ok (bytes.take count), .bytes (bytes.drop count) :: source)
    else
      match readExact (count - bytes.length) source with
      | (.ok more, source) => (.ok (bytes ++ more), source)
      | (.error error, source) => (.error error, source)

end Source

/-! ## 3. Sinks -/

/-- A stream that is written to. -/
structure Sink where
  /-- How many more bytes it takes; `none` if any number. -/
  room : Option Nat
  /-- How a write fails that finds no room; without it such a write takes nothing. -/
  fault : Option IoError
  /-- How flushing fails, if it does. -/
  flushFault : Option IoError
  /-- What has been written. -/
  accepted : Bytes
  flushes : Nat
  deriving Repr

namespace Sink

/-- Writes all bytes; if there is no room for them, those that fit. -/
def writeAll (bytes : Bytes) (sink : Sink) : Except IoError Unit × Sink :=
  match sink.room with
  | none => (.ok (), { sink with accepted := sink.accepted ++ bytes })
  | some room =>
    let fitting := bytes.take room
    let sink := { sink with accepted := sink.accepted ++ fitting, room := some (room - fitting.length) }
    if fitting.length = bytes.length then (.ok (), sink)
    else (.error (sink.fault.getD ⟨.writeZero, "failed to write whole buffer"⟩), sink)

/-- Flushes. -/
def flush (sink : Sink) : Except IoError Unit × Sink :=
  let sink := { sink with flushes := sink.flushes + 1 }
  match sink.flushFault with
  | some error => (.error error, sink)
  | none => (.ok (), sink)

end Sink

/-! ## 4. Frames -/

/-- How frames are read and written. -/
structure FrameCodec where
  /-- The longest message. -/
  limit : Nat := 100 * 1024 * 1024
  /-- The time limit that is reported when a read or write times out. -/
  timeoutMs : Nat := 5000
  deriving DecidableEq, Repr

namespace FrameCodec

/-- The failure that an input or output error means. -/
def ioError (codec : FrameCodec) (error : IoError) (activity : String) : Error :=
  match error.kind with
  | .timedOut | .wouldBlock => .timeout codec.timeoutMs
  | .connectionReset | .connectionAborted | .notConnected | .brokenPipe | .unexpectedEnd =>
    .connection (.lost activity)
  | .interrupted | .writeZero | .other => .io error.text

/-- The failure of a message of this size, if it is too long. -/
def sizeFault? (codec : FrameCodec) (size : Nat) : Option Error :=
  if codec.limit < size ∨ UInt32.size ≤ size then some (.transport (.messageTooLarge size codec.limit))
  else none

/-- Writes a message as one frame and flushes. -/
def writeFrame (codec : FrameCodec) (body : Bytes) (sink : Sink) : Except Error Unit × Sink :=
  match codec.sizeFault? body.length with
  | some error => (.error error, sink)
  | none =>
    match sink.writeAll (Bytes.bigEndian 4 body.length) with
    | (.error error, sink) => (.error (codec.ioError error "writing length prefix"), sink)
    | (.ok (), sink) =>
      match sink.writeAll body with
      | (.error error, sink) => (.error (codec.ioError error "writing data"), sink)
      | (.ok (), sink) =>
        match sink.flush with
        | (.error error, sink) => (.error (codec.ioError error "flushing stream"), sink)
        | (.ok (), sink) => (.ok (), sink)

/-- Reads the message of the next frame. -/
def readFrame (codec : FrameCodec) (source : Source) : Except Error Bytes × Source :=
  match source.readExact 4 with
  | (.error error, source) => (.error (codec.ioError error "reading length prefix"), source)
  | (.ok size, source) =>
    match codec.sizeFault? size.toNat with
    | some error => (.error error, source)
    | none =>
      match source.readExact size.toNat with
      | (.error error, source) => (.error (codec.ioError error "reading data"), source)
      | (.ok body, source) => (.ok body, source)

end FrameCodec

end RemoteCall.Transport
