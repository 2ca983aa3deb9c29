/-
# Bytes as hexadecimal digits

A byte is written as two digits, the high half first.  Small letters are written; both cases are
read.
-/
import RemoteCall.Bytes

namespace RemoteCall.Hex

/-- The digit of a number below sixteen. -/
def digit (n : Nat) : Char := if n < 10 then Char.ofNat (48 + n) else Char.ofNat (87 + n)

/-- The value of a digit. -/
def value? (c : Char) : Option Nat :=
  if '0' ≤ c ∧ c ≤ '9' then some (c.toNat - '0'.toNat)
  else if 'a' ≤ c ∧ c ≤ 'f' then some (c.toNat - 'a'.toNat + 10)
  else if 'A' ≤ c ∧ c ≤ 'F' then some (c.toNat - 'A'.toNat + 10)
  else none

/-- The digits of a byte. -/
def digits (byte : UInt8) : List Char := [digit (byte.toNat / 16), digit (byte.toNat % 16)]

/-- The digits of a byte string. -/
def encode (bytes : Bytes) : String := String.ofList (bytes.flatMap digits)

/-- The bytes that pairs of digits spell; `done` holds those before, last first. -/
def decodeAfter (done : Bytes) : List Char → Option Bytes
  | [] => some done.reverse
  | [_] => none
  | high :: low :: rest =>
    match value? high, value? low with
    | some high, some low => decodeAfter (UInt8.ofNat (16 * high + low) :: done) rest
    | _, _ => none

/-- The bytes that a text of digits spells. -/
def decode? (text : String) : Option Bytes := decodeAfter [] text.toList

end RemoteCall.Hex
