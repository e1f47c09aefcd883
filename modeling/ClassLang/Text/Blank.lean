import ClassLang.Text.Ranges

/-!
The Unicode property `White_Space`. The zero-width space and the byte order mark are not in it.
-/

namespace ClassLang.Text

def blankRanges : List (Nat × Nat) :=
  [(0x9, 0xD), (0x20, 0x20), (0x85, 0x85), (0xA0, 0xA0), (0x1680, 0x1680), (0x2000, 0x200A),
   (0x2028, 0x2029), (0x202F, 0x202F), (0x205F, 0x205F), (0x3000, 0x3000)]

/-- The character has the Unicode property `White_Space`. -/
def isBlank (c : Char) : Bool :=
  inRanges c.toNat blankRanges

end ClassLang.Text
