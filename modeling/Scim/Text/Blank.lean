import Scim.Text.Ranges

/-! Blank characters: what may stand between the words of a filter. -/
namespace Scim.Text

/-- The characters with the White_Space property. -/
def blankRanges : List (Nat × Nat) := [
  (0x0009, 0x000D), (0x0020, 0x0020), (0x0085, 0x0085), (0x00A0, 0x00A0), (0x1680, 0x1680),
  (0x2000, 0x200A), (0x2028, 0x2029), (0x202F, 0x202F), (0x205F, 0x205F), (0x3000, 0x3000)]

def isBlank (c : Char) : Bool := inRanges blankRanges c

def skipBlank (text : List Char) : List Char := text.dropWhile isBlank

end Scim.Text
