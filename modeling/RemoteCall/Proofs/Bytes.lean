/-
# Bytes: writing and reading are inverse

Numbers of a fixed width and texts are the leaves of the wire format.  Each has a law in both
directions: what was written is read back (`toNat_bigEndian`, `toInt64_ofInt64`), and what was read
is what would have been written (`bigEndian_toNat`, `ofInt64_toInt64`).  For texts both stand in
one equivalence (`Utf8.decode_eq_ok_iff`).  The second direction keeps a reader from accepting two
forms of one thing.
-/
import Mathlib.Tactic.Ring
import RemoteCall.Text.Utf8

namespace RemoteCall

namespace Bytes

/-! ## 1. Numbers of a fixed width -/

/-- The first byte is the most significant one. -/
theorem toNat_cons (byte : UInt8) (bytes : Bytes) :
    toNat (byte :: bytes) = byte.toNat * 256 ^ bytes.length + toNat bytes := by
  have shift : ∀ (bytes : Bytes) (n : Nat),
      bytes.foldl (fun n byte => 256 * n + byte.toNat) n =
        n * 256 ^ bytes.length + toNat bytes := by
    intro bytes
    induction bytes with
    | nil => intro n; simp [toNat]
    | cons byte bytes ih =>
      intro n
      simp only [toNat, List.foldl_cons, List.length_cons]
      rw [ih (256 * n + byte.toNat), ih (256 * 0 + byte.toNat), Nat.pow_succ]
      ring
  simpa [toNat] using shift bytes byte.toNat

/-- A byte string spells a number below the power of 256 of its length. -/
theorem toNat_lt : ∀ bytes : Bytes, toNat bytes < 256 ^ bytes.length
  | [] => by simp [toNat]
  | byte :: bytes => by
    have ih := toNat_lt bytes
    have hbyte : byte.toNat + 1 ≤ 256 := byte.toNat_lt
    have := Nat.mul_le_mul_right (256 ^ bytes.length) hbyte
    rw [toNat_cons, List.length_cons, Nat.pow_succ, Nat.mul_comm (256 ^ _)]
    rw [Nat.add_mul] at this
    omega

/-- The first byte counts the whole powers of 256 above the others. -/
theorem bigEndian_succ (width n : Nat) :
    bigEndian (width + 1) n = UInt8.ofNat (n / 256 ^ width) :: bigEndian width n := by
  have hpow : 2 ^ (8 * width) = 256 ^ width := Nat.pow_mul 2 8 width
  rw [bigEndian, Nat.shiftRight_eq_div_pow, hpow]

/-- Only the low bytes of a number are written. -/
theorem bigEndian_mod : ∀ width n : Nat, bigEndian width (n % 256 ^ width) = bigEndian width n
  | 0, _ => rfl
  | width + 1, n => by
    have hmod : n % 256 ^ (width + 1) % 256 ^ width = n % 256 ^ width :=
      Nat.mod_mod_of_dvd n (Nat.pow_dvd_pow 256 (Nat.le_succ width))
    have hdiv : n % 256 ^ (width + 1) / 256 ^ width = n / 256 ^ width % 256 := by
      rw [Nat.pow_succ, Nat.mod_mul_right_div_self]
    have hlow : UInt8.ofNat (n / 256 ^ width % 256) = UInt8.ofNat (n / 256 ^ width) :=
      UInt8.ofNat_mod_size
    rw [bigEndian_succ, bigEndian_succ, hdiv, hlow, ← bigEndian_mod width n,
      ← bigEndian_mod width (n % 256 ^ (width + 1)), hmod]

/-- **A number is read back** as far as its bytes carry it. -/
theorem toNat_bigEndian_mod : ∀ width n : Nat, toNat (bigEndian width n) = n % 256 ^ width
  | 0, n => by simp [bigEndian, toNat, Nat.mod_one]
  | width + 1, n => by
    have hlow : (UInt8.ofNat (n / 256 ^ width)).toNat = n / 256 ^ width % 256 := UInt8.toNat_ofNat'
    rw [bigEndian_succ, toNat_cons, length_bigEndian, toNat_bigEndian_mod width n, hlow,
      Nat.mod_pow_succ]
    ring

theorem toNat_bigEndian {width n : Nat} (h : n < 256 ^ width) : toNat (bigEndian width n) = n := by
  rw [toNat_bigEndian_mod, Nat.mod_eq_of_lt h]

/-- **Bytes are those of the number they spell.** -/
theorem bigEndian_toNat : ∀ bytes : Bytes, bigEndian bytes.length (toNat bytes) = bytes
  | [] => rfl
  | byte :: bytes => by
    have hlt := toNat_lt bytes
    have hpos : 0 < 256 ^ bytes.length := Nat.pow_pos (by decide)
    rw [toNat_cons, List.length_cons, bigEndian_succ, ← bigEndian_mod bytes.length,
      Nat.mul_add_mod', Nat.mod_eq_of_lt hlt, bigEndian_toNat bytes, Nat.add_comm,
      Nat.add_mul_div_right _ _ hpos, Nat.div_eq_of_lt hlt, Nat.zero_add, UInt8.ofNat_toNat]

/-- A signed word is read back. -/
theorem toInt64_ofInt64 (n : Int64) : toInt64 (ofInt64 n) = n := by
  have hlt : n.toUInt64.toNat < 256 ^ 8 := n.toUInt64.toNat_lt
  rw [toInt64, ofInt64, toNat_bigEndian hlt, UInt64.ofNat_toNat, Int64.toInt64_toUInt64]

/-- Eight bytes are those of the signed word they spell. -/
theorem ofInt64_toInt64 {bytes : Bytes} (h : bytes.length = 8) :
    ofInt64 (toInt64 bytes) = bytes := by
  have hlt : toNat bytes < 2 ^ 64 := by
    have := toNat_lt bytes
    rw [h] at this
    exact this
  rw [toInt64, ofInt64, UInt64.toUInt64_toInt64, UInt64.toNat_ofNat_of_lt' hlt, ← h,
    bigEndian_toNat]

/-! ## 2. Texts -/

@[simp] theorem length_ofString (text : String) : (ofString text).length = text.utf8ByteSize := by
  rw [ofString, Array.length_toList, ← String.size_toByteArray, ByteArray.size_data]

theorem toByteArray_ofString (text : String) : (ofString text).toByteArray = text.toByteArray := by
  rw [ofString]
  ext1
  rw [List.data_toByteArray, Array.toArray_toList]

end Bytes

/-- **A text is read from its own UTF-8 form and from nothing else.** -/
theorem Utf8.decode_eq_ok_iff {raw : Bytes} {text : String} :
    decode raw = .ok text ↔ raw = Bytes.ofString text := by
  unfold decode String.fromUTF8?
  constructor
  · intro h
    split at h
    · rename_i found hfound
      split at hfound
      · cases h
        cases hfound
        rw [Bytes.ofString, String.fromUTF8, List.data_toByteArray, List.toList_toArray]
      · cases hfound
    · cases h
  · rintro rfl
    have hvalid : (Bytes.ofString text).toByteArray.IsValidUTF8 := by
      rw [Bytes.toByteArray_ofString]
      exact text.isValidUTF8
    have htext : String.fromUTF8 (Bytes.ofString text).toByteArray hvalid = text := by
      rw [String.fromUTF8, String.ext_iff]
      simp only [Bytes.toByteArray_ofString]
    rw [dif_pos hvalid, htext]

end RemoteCall
