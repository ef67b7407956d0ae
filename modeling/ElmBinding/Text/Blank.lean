import ElmBinding.Text.Ranges

/-!
# Blank characters

The characters with the property White_Space, Unicode 17.

Main definitions:

- Definition {lit}`blankRanges`: the ranges, ascending and disjoint.
- Definition {lit}`isBlank`: membership of a character.
-/

namespace ElmBinding
namespace Text

/-- The code points with the property White_Space. -/
def blankRanges : Ranges := [
  (0x09, 0x0D), (0x20, 0x20), (0x85, 0x85), (0xA0, 0xA0), (0x1680, 0x1680), (0x2000, 0x200A),
  (0x2028, 0x2029), (0x202F, 0x202F), (0x205F, 0x205F), (0x3000, 0x3000)]

/-- Whether a character is white space. -/
def isBlank (c : Char) : Bool :=
  blankRanges.covers c.toNat

end Text
end ElmBinding
