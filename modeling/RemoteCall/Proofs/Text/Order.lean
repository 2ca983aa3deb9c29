/-
# Texts are in the order of their UTF-8 bytes

Texts are compared by code point, one after the other; their UTF-8 bytes are compared as numbers, one
after the other.  Both orders are the same (`Bytes.ofString_lt_iff`), so whoever sorts encoded names
by their bytes and whoever sorts texts agree.

The reason is that UTF-8 spells a code point in a positional system: more bytes start with a higher
first byte, and among spellings of one length the first digit that differs decides
(`Bytes.utf8EncodeChar_append_lt`).
-/
import Mathlib.Data.String.Basic
import RemoteCall.Proofs.Bytes

namespace RemoteCall.Bytes

/-- The lesser of two numbers has the lesser leading part, or the same and the lesser last digit. -/
theorem digits_lt {m n : Nat} (base : Nat) (h : m < n) :
    m / base < n / base ∨ m / base = n / base ∧ m % base < n % base := by
  rcases Nat.lt_or_eq_of_le (Nat.div_le_div_right (c := base) h.le) with hlt | heq
  · exact .inl hlt
  · have hm := Nat.div_add_mod m base
    have hn := Nat.div_add_mod n base
    rw [heq] at hm
    exact .inr ⟨heq, by omega⟩

/-- **The lesser of two characters has the lesser bytes**, whatever follows them. -/
theorem utf8EncodeChar_append_lt {c d : Char} (h : c < d) (rest rest' : Bytes) :
    String.utf8EncodeChar c ++ rest < String.utf8EncodeChar d ++ rest' := by
  have hlt : c.val.toNat < d.val.toNat := h
  have hlast : d.val.toNat < 0x110000 := by
    have hvalid := d.valid
    simp only [UInt32.isValidChar, Nat.isValidChar] at hvalid
    omega
  unfold String.utf8EncodeChar
  generalize c.val.toNat = m at hlt
  generalize d.val.toNat = n at hlt hlast
  have hless : ∀ {a b : Nat}, a < 256 → b < 256 → (UInt8.ofNat a < UInt8.ofNat b ↔ a < b) :=
    fun ha hb => UInt8.ofNat_lt_iff_lt ha hb
  have hsame : ∀ {a b : Nat}, a < 256 → b < 256 → (UInt8.ofNat a = UInt8.ofNat b ↔ a = b) := by
    intro a b ha hb
    rw [← UInt8.toNat_inj, UInt8.toNat_ofNat_of_lt' ha, UInt8.toNat_ofNat_of_lt' hb]
  -- the digits in base 64, from the last one on
  have hlow := digits_lt 64 hlt
  have hmiddle : m / 64 < n / 64 →
      m / 4096 < n / 4096 ∨ m / 4096 = n / 4096 ∧ m / 64 % 64 < n / 64 % 64 := by
    intro h
    simpa only [Nat.div_div_eq_div_mul] using digits_lt 64 h
  have hhigh : m / 4096 < n / 4096 →
      m / 262144 < n / 262144 ∨ m / 262144 = n / 262144 ∧ m / 4096 % 64 < n / 4096 % 64 := by
    intro h
    simpa only [Nat.div_div_eq_div_mul] using digits_lt 64 h
  dsimp only
  split_ifs <;>
    simp (disch := omega) only [List.cons_append, List.nil_append, List.cons_lt_cons_iff, hless,
      hsame, Nat.mod_eq_of_lt]
  all_goals omega

theorem utf8EncodeChar_ne_nil (c : Char) : String.utf8EncodeChar c ≠ [] := by
  rw [← List.length_pos_iff, String.length_utf8EncodeChar]
  exact c.utf8Size_pos

theorem flatMap_utf8EncodeChar_lt : ∀ {text text' : List Char}, text < text' →
    text.flatMap String.utf8EncodeChar < text'.flatMap String.utf8EncodeChar
  | _, [], h => absurd h (List.not_lt_nil _)
  | [], c :: rest, _ => by
    have hne := utf8EncodeChar_ne_nil c
    rw [List.flatMap_cons, List.flatMap_nil]
    cases hbytes : String.utf8EncodeChar c with
    | nil => exact absurd hbytes hne
    | cons byte bytes => exact List.nil_lt_cons _ _
  | c :: rest, d :: rest', h => by
    rw [List.flatMap_cons, List.flatMap_cons]
    rcases List.cons_lt_cons_iff.mp h with hlt | ⟨rfl, hlt⟩
    · exact utf8EncodeChar_append_lt hlt _ _
    · exact List.Lex.append_left _ (flatMap_utf8EncodeChar_lt hlt) _

theorem ofString_eq_flatMap (text : String) :
    ofString text = text.toList.flatMap String.utf8EncodeChar := by
  conv_lhs => rw [← String.ofList_toList (s := text)]
  rw [ofString, String.toByteArray_ofList, List.utf8Encode, List.data_toByteArray,
    List.toList_toArray]

/-- **Texts are ordered as their UTF-8 bytes.** -/
theorem ofString_lt_iff {text text' : String} :
    ofString text < ofString text' ↔ text < text' := by
  have hlt : ∀ {text text' : String}, text < text' → ofString text < ofString text' := by
    intro text text' h
    rw [ofString_eq_flatMap, ofString_eq_flatMap]
    exact flatMap_utf8EncodeChar_lt (String.lt_iff_toList_lt.mp h)
  refine ⟨fun h => ?_, hlt⟩
  rcases lt_trichotomy text text' with hless | rfl | hmore
  · exact hless
  · exact absurd h (List.lt_irrefl _)
  · exact absurd h (List.lt_asymm (hlt hmore))

end RemoteCall.Bytes
