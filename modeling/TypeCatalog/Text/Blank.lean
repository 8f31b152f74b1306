import TypeCatalog.Text.CodeRange

/-!
# Blank characters

The characters with the Unicode property `White_Space`: what may stand between two tokens without
being one.
-/

namespace TypeCatalog.Text

/-- The ranges of the Unicode property `White_Space`. -/
def blankRanges : List CodeRange :=
  [(0x9, 0xD), (0x20, 0x20), (0x85, 0x85), (0xA0, 0xA0), (0x1680, 0x1680), (0x2000, 0x200A),
   (0x2028, 0x2029), (0x202F, 0x202F), (0x205F, 0x205F), (0x3000, 0x3000)]

/-- Whether a character is white space in the sense of Unicode. -/
def isBlank (c : Char) : Bool := inRanges blankRanges c

/-- The space that separates tokens is blank. -/
theorem isBlank_space : isBlank ' ' = true := by decide

end TypeCatalog.Text
