import ElmBinding.Text.CaseIgnorable
import ElmBinding.Text.Cased
import ElmBinding.Text.Lower

/-!
# Lowercase text

Lowercasing works character by character, except for the capital sigma: at the end of a
word it becomes `ς`, elsewhere `σ`.  A word ends there if a cased character stands before
the sigma and none after it, not counting the characters that casing looks through.

Main definitions:

- Definition {lit}`casedAhead`: whether a text goes on with a cased character.
- Definition {lit}`lowercase`: the lowercase form of a text.
-/

namespace ElmBinding
namespace Text

/-- Whether the first character that casing does not look through is cased. -/
def casedAhead : List Char → Bool
  | [] => false
  | c :: rest => if isCaseIgnorable c then casedAhead rest else isCased c

/-- The lowercase form of a text whose predecessor ends in a cased character or not. -/
def lowercaseAfter (casedBefore : Bool) : List Char → List Char
  | [] => []
  | c :: rest =>
      let image :=
        if c = 'Σ' then
          [if casedBefore && !casedAhead rest then 'ς' else 'σ']
        else
          lowerChar c
      image ++ lowercaseAfter (if isCaseIgnorable c then casedBefore else isCased c) rest

/-- The lowercase form of a text. -/
def lowercase (text : List Char) : List Char :=
  lowercaseAfter false text

end Text
end ElmBinding
