/-
# Byte strings and fixed-width big-endian numbers

A byte string is a list of bytes, so that a reader's unread input is the state itself and every
statement about it is one about lists.  Lengths and numbers on the wire have a fixed width and the
most significant byte first: `bigEndian` writes them, `toNat` reads them back.
-/

namespace RemoteCall

/-- A string of bytes. -/
abbrev Bytes := List UInt8

namespace Bytes

/-! ## 1. Big-endian numbers -/

/-- The `width` low bytes of `n`, most significant first. -/
def bigEndian : (width n : Nat) → Bytes
  | 0, _ => []
  | width + 1, n => UInt8.ofNat (n >>> (8 * width)) :: bigEndian width n

/-- The number a byte string spells, most significant byte first. -/
def toNat (bytes : Bytes) : Nat :=
  bytes.foldl (fun n byte => 256 * n + byte.toNat) 0

/-- A signed word as eight bytes in two's complement. -/
def ofInt64 (n : Int64) : Bytes := bigEndian 8 n.toUInt64.toNat

/-- The signed word that eight bytes spell in two's complement. -/
def toInt64 (bytes : Bytes) : Int64 := (UInt64.ofNat bytes.toNat).toInt64

/-! ## 2. Text -/

/-- The UTF-8 bytes of a text. -/
def ofString (text : String) : Bytes := text.toByteArray.data.toList

@[simp] theorem length_bigEndian (width n : Nat) : (bigEndian width n).length = width := by
  induction width with
  | zero => rfl
  | succ width ih => simp [bigEndian, ih]

@[simp] theorem length_ofInt64 (n : Int64) : (ofInt64 n).length = 8 :=
  length_bigEndian 8 _

end Bytes

end RemoteCall
