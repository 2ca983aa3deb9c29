/-
# Reading UTF-8, and naming the place where it fails

`decode` accepts exactly the byte strings that are the UTF-8 form of some text.  For the others it
names the first fault: the index at which the valid part ends and either the length of the longest
run of bytes there that begins a character but cannot be completed, or that the input ends inside
a character.

The fault is found by one pass.  After a leading byte the bytes that may follow are known as a list
of ranges; the pass walks down that list and starts again when it is used up.
-/
import RemoteCall.Bytes

namespace RemoteCall.Utf8

/-- Where and how a byte string stops being UTF-8. -/
inductive Fault where
  /-- `length` bytes at `index` begin a character that the next byte cannot continue. -/
  | invalid (length index : Nat)
  /-- The input ends inside the character that starts at `index`. -/
  | incomplete (index : Nat)
  deriving DecidableEq, Repr

/-- The wording of a fault. -/
def Fault.message : Fault → String
  | .invalid length index => s!"invalid utf-8 sequence of {length} bytes from index {index}"
  | .incomplete index => s!"incomplete utf-8 byte sequence from index {index}"

/-- A range of byte values, both ends included. -/
structure ByteRange where
  low : UInt8
  high : UInt8
  deriving DecidableEq, Repr

/-- Whether a byte lies in the range. -/
def ByteRange.contains (range : ByteRange) (byte : UInt8) : Bool :=
  range.low ≤ byte && byte ≤ range.high

/-- The bytes that continue a character. -/
def continuation : ByteRange := ⟨0x80, 0xBF⟩

/-- The ranges of the bytes that must follow a leading byte; `none` if no character starts with it.
The narrower second ranges shut out overlong forms, surrogates and code points past the last. -/
def following (lead : UInt8) : Option (List ByteRange) :=
  if lead ≤ 0x7F then some []
  else if 0xC2 ≤ lead && lead ≤ 0xDF then some [continuation]
  else if lead == 0xE0 then some [⟨0xA0, 0xBF⟩, continuation]
  else if lead == 0xED then some [⟨0x80, 0x9F⟩, continuation]
  else if 0xE1 ≤ lead && lead ≤ 0xEF then some [continuation, continuation]
  else if lead == 0xF0 then some [⟨0x90, 0xBF⟩, continuation, continuation]
  else if 0xF1 ≤ lead && lead ≤ 0xF3 then some [continuation, continuation, continuation]
  else if lead == 0xF4 then some [⟨0x80, 0x8F⟩, continuation, continuation]
  else none

/-- Scans on from inside a character that starts at `index`, of which `seen` bytes have been read
and which still lacks bytes of the ranges `expected`. -/
def scan (index seen : Nat) (expected : List ByteRange) : Bytes → Option Fault
  | [] => if expected.isEmpty then none else some (.incomplete index)
  | byte :: rest =>
    match expected with
    | [] =>
      match following byte with
      | none => some (.invalid 1 (index + seen))
      | some ranges => scan (index + seen) 1 ranges rest
    | range :: ranges =>
      if range.contains byte then scan index (seen + 1) ranges rest
      else some (.invalid seen index)

/-- The first fault of a byte string, if it has one. -/
def firstFault (bytes : Bytes) : Option Fault := scan 0 0 [] bytes

/-- The text whose UTF-8 form is `bytes`, or the first fault. -/
def decode (bytes : Bytes) : Except Fault String :=
  match String.fromUTF8? bytes.toByteArray with
  | some text => .ok text
  | none => .error ((firstFault bytes).getD (.incomplete 0))

end RemoteCall.Utf8
