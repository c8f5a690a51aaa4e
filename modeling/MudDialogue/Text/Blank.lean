import MudDialogue.Text.CodeSet

/-!
# Blank characters

The characters with the Unicode property White_Space.
-/

namespace MudDialogue.Text

/-- All blank code points. -/
def blankTable : CodeSet := [
  (0x9, 0xD), (0x20, 0x20), (0x85, 0x85), (0xA0, 0xA0), (0x1680, 0x1680),
  (0x2000, 0x200A), (0x2028, 0x2029), (0x202F, 0x202F), (0x205F, 0x205F), (0x3000, 0x3000)]

/-- The character is white space. -/
def isBlank (c : Char) : Bool := blankTable.contains c.toNat

/-- A text in which nothing but white space stands. -/
def isBlankText (s : String) : Bool := s.toList.all isBlank

end MudDialogue.Text
