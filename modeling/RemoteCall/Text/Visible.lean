/-
# Characters that show

A character is visible if it leaves a mark of its own on the page.  The others change what stands
beside them, leave room, or stand for nothing that is known: control and format characters, spaces,
fillers, extenders, private characters and code points without a character.
-/
import RemoteCall.Text.Extender
import RemoteCall.Text.Unassigned

namespace RemoteCall.Visible

/-! ## 1. Characters that leave no mark -/

/-- The control characters. -/
def controls : List CodeRange := [⟨0x0, 0x1F⟩, ⟨0x7F, 0x9F⟩]

/-- The spaces of every width and the separators of lines and paragraphs. -/
def separators : List CodeRange := [
  ⟨0x20, 0x20⟩, ⟨0xA0, 0xA0⟩, ⟨0x1680, 0x1680⟩, ⟨0x2000, 0x200A⟩, ⟨0x2028, 0x2029⟩,
  ⟨0x202F, 0x202F⟩, ⟨0x205F, 0x205F⟩, ⟨0x3000, 0x3000⟩]

/-- The characters that guide the layout of others: direction, joining, annotation and tags. -/
def formats : List CodeRange := [
  ⟨0xAD, 0xAD⟩, ⟨0x600, 0x605⟩, ⟨0x61C, 0x61C⟩, ⟨0x6DD, 0x6DD⟩, ⟨0x70F, 0x70F⟩, ⟨0x890, 0x891⟩,
  ⟨0x8E2, 0x8E2⟩, ⟨0x180E, 0x180E⟩, ⟨0x200B, 0x200F⟩, ⟨0x202A, 0x202E⟩, ⟨0x2060, 0x2064⟩,
  ⟨0x2066, 0x206F⟩, ⟨0xFEFF, 0xFEFF⟩, ⟨0xFFF9, 0xFFFB⟩, ⟨0x110BD, 0x110BD⟩, ⟨0x110CD, 0x110CD⟩,
  ⟨0x13430, 0x1343F⟩, ⟨0x1BCA0, 0x1BCA3⟩, ⟨0x1D173, 0x1D17A⟩, ⟨0xE0001, 0xE0001⟩,
  ⟨0xE0020, 0xE007F⟩]

/-- The letters of Hangul that only hold the place of another. -/
def fillers : List CodeRange := [⟨0x115F, 0x1160⟩, ⟨0x3164, 0x3164⟩, ⟨0xFFA0, 0xFFA0⟩]

/-- The characters whose meaning is left to an agreement between those who use them. -/
def privateUse : List CodeRange := [⟨0xE000, 0xF8FF⟩, ⟨0xF0000, 0xFFFFD⟩, ⟨0x100000, 0x10FFFD⟩]

/-- All characters that leave no mark, extenders and unassigned code points apart. -/
def blanks : List CodeRange := controls ++ separators ++ formats ++ fillers ++ privateUse

/-! ## 2. Extenders with a place of their own -/

/-- The sound marks of halfwidth katakana extend the character before them, but take up a place
of their own as letters do. -/
def soundMarks : CodeRange := ⟨0xFF9E, 0xFF9F⟩

end RemoteCall.Visible

namespace RemoteCall

/-- Whether a character leaves a mark of its own; the plain space counts as one that does. -/
def isVisible (c : Char) : Bool :=
  (' ' ≤ c && c ≤ '~') ||
    (!Visible.blanks.any (·.covers c) && (!isExtender c || Visible.soundMarks.covers c) &&
      !isUnassigned c)

end RemoteCall
