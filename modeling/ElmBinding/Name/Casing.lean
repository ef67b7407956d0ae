import ElmBinding.Name.Words
import ElmBinding.Text.Lowercase
import ElmBinding.Text.Upper

/-!
# Casing of names

A dotted schema name becomes an identifier: every word is capitalised and the rest of it
lowercased, the words of a segment are put together, and the segments are joined with a
separator.  A type name begins with a capital, a value name with a small letter.

Main definitions:

- Definition {lit}`Role`: whether a name is wanted for a type or for a value.
- Definition {lit}`casedPieces`: the cased segments of a name.
- Definition {lit}`casing`: the identifier of a name.
-/

namespace ElmBinding
namespace Name

open Text

/-- What an identifier names: types and variants, or values and functions. -/
inductive Role where
  /-- Types and variants, which begin with a capital. -/
  | type
  /-- Values and functions, which begin with a small letter. -/
  | value
deriving DecidableEq, Repr

/-- A word with its first character in uppercase and the others in lowercase. -/
def capitalize : List Char → List Char
  | [] => []
  | c :: rest => upperChar c ++ lowercase rest

/-- A word with its first character in lowercase and the others in lowercase. -/
def uncapitalize : List Char → List Char
  | [] => []
  | c :: rest => lowerChar c ++ lowercase rest

/-- The first word of an identifier in the case of its role. -/
def openingWord : Role → List Char → List Char
  | .type => capitalize
  | .value => uncapitalize

/-- The first segment of a name, cased for a role. -/
def openingPiece (role : Role) (segment : List Char) : List Char :=
  match firstSegmentWords segment with
  | [] => []
  | word :: words => openingWord role word ++ (words.map capitalize).flatten

/-- A segment of a name after the first, cased. -/
def followingPiece (segment : List Char) : List Char :=
  ((segmentWords segment).map capitalize).flatten

/-- The cased segments of a name. -/
def casedPieces (role : Role) (name : String) : List (List Char) :=
  match splitAtChar '.' name.toList with
  | [] => []
  | segment :: segments => openingPiece role segment :: segments.map followingPiece

/-- The placeholder in the case of a role. -/
def Role.placeholder : Role → Char
  | .type => 'X'
  | .value => 'x'

/-- The identifier of a dotted name: its cased segments joined with a separator. -/
def casing (role : Role) (separator : String) (name : String) : String :=
  let joined := separator.toList.intercalate (casedPieces role name)
  String.ofList (if startsWithLetter joined then joined else role.placeholder :: joined)

end Name
end ElmBinding
