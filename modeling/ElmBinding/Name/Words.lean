import ElmBinding.Text.Alphabetic
import ElmBinding.Text.Numeric
import ElmBinding.Text.Pieces
import ElmBinding.Text.Uppercase

/-!
# Words of a name segment

A segment of a schema name is cut into words at runs of underscores and at changes of
case: `URLTag_id` has the words `URL`, `Tag` and `id`.  A run of capitals is one word, and
numbers go on with the run they follow.  When another character follows the run, the last
character of the run already belongs to the next word.

Main definitions:

- Definition {lit}`underscoreParts`: the parts between runs of underscores.
- Definition {lit}`humps`: the words of a part, cut at changes of case.
- Definition {lit}`segmentWords`: the words of a segment, none of them empty.
-/

namespace ElmBinding
namespace Name

open Text

/-- The letter that stands for an empty word and goes before a word without a first letter. -/
def placeholder : Char := 'X'

/-- Whether a text begins with a letter. -/
def startsWithLetter (text : List Char) : Bool :=
  text.head?.any isAlphabetic

/-! ## Underscores -/

/-- A text in which every run of underscores is one underscore. -/
def collapseUnderscores : List Char → List Char
  | [] => []
  | c :: rest =>
      if c = '_' && rest.head? = some '_' then
        collapseUnderscores rest
      else
        c :: collapseUnderscores rest

/-- The parts of a segment between runs of underscores, the empty ones at its ends included. -/
def underscoreParts (segment : List Char) : List (List Char) :=
  splitAtChar '_' (collapseUnderscores segment)

/-! ## Changes of case -/

/-- Whether a run of capitals goes on after a character, given whether it did before. -/
def staysCapital (capital : Bool) (c : Char) : Bool :=
  isUppercase c || (capital && isNumeric c)

/-- Whether the next character ends a run of capitals. -/
def leavesCapitals : List Char → Bool
  | [] => false
  | c :: _ => !isUppercase c && !isNumeric c

/--
Whether a character opens a word: a capital that starts a run of capitals does, and so
does the last character of a run that ends behind it.
-/
def opensWord (capital : Bool) (c : Char) (rest : List Char) : Bool :=
  (isUppercase c && !capital) || (staysCapital capital c && leavesCapitals rest)

/-- The words of a text whose first word has begun with {lit}`word`. -/
def humpsFrom (capital : Bool) (word : List Char) : List Char → List (List Char)
  | [] => [word]
  | c :: rest =>
      if !word.isEmpty && opensWord capital c rest then
        word :: humpsFrom (staysCapital capital c) [c] rest
      else
        humpsFrom (staysCapital capital c) (word ++ [c]) rest

/-- The words of a part without underscores; an empty part is one empty word. -/
def humps (part : List Char) : List (List Char) :=
  humpsFrom false [] part

/-! ## Segments -/

/-- A word, or the placeholder if it is empty. -/
def fillWord (word : List Char) : List Char :=
  if word.isEmpty then [placeholder] else word

/-- A word that begins with a letter, the placeholder if need be. -/
def leadWithLetter (word : List Char) : List Char :=
  if startsWithLetter word then word else placeholder :: word

/-- The words of a segment. -/
def segmentWords (segment : List Char) : List (List Char) :=
  ((underscoreParts segment).flatMap humps).map fillWord

/-- The words of the first segment of a name; the first of them begins with a letter. -/
def firstSegmentWords (segment : List Char) : List (List Char) :=
  (segmentWords segment).modifyHead leadWithLetter

end Name
end ElmBinding
