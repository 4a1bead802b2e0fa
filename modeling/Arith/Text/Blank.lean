import Arith.Text.Ranges

namespace Arith.Text

/-- White space in the wide sense: the controls that separate lines, fields and records, and every
character of the categories `Zs`, `Zl` and `Zp`. -/
def blankRanges : List (Nat × Nat) := [
  (0x9, 0xd), (0x1c, 0x20), (0x85, 0x85), (0xa0, 0xa0), (0x1680, 0x1680), (0x2000, 0x200a),
  (0x2028, 0x2029), (0x202f, 0x202f), (0x205f, 0x205f), (0x3000, 0x3000)]

def isBlankChar (c : Char) : Bool := inRanges blankRanges c

def isBlank (line : String) : Bool := line.toList.all isBlankChar

end Arith.Text
