/-!
# Ranges of code points

Character properties are tables of closed ranges.  The ranges of a table ascend, so a
search stops at the first range that begins beyond the character it looks for.

Main definitions:

- Definition {lit}`Ranges`: a table of closed ranges.
- Definition {lit}`Ranges.covers`: membership of a code point.
-/

namespace ElmBinding
namespace Text

/-- Closed ranges of code points, each given by its ends, ascending and disjoint. -/
abbrev Ranges := List (Nat × Nat)

/-- Whether a code point lies in one of the ranges. -/
def Ranges.covers : Ranges → Nat → Bool
  | [], _ => false
  | (first, last) :: rest, n =>
      if n < first then
        false
      else if n ≤ last then
        true
      else
        Ranges.covers rest n

end Text
end ElmBinding
