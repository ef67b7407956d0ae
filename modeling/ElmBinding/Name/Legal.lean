import ElmBinding.Name.Words

/-!
# Legal identifiers

An identifier is a letter followed by letters, numbers and underscores.  A module name is
a dotted list of identifiers that begin with capitals.

Main definitions:

- Definition {lit}`isFragment`: what may follow the first letter of an identifier.
- Definition {lit}`isIdentifier`: a whole identifier, reserved words not ruled out.
- Definition {lit}`isModuleName`: a dotted list of type identifiers.
- Theorem {lit}`isIdentifier_append`: an identifier followed by a fragment is one.
-/

namespace ElmBinding
namespace Name

open Text

/-- Whether a character may stand in an identifier after its first letter. -/
def isIdentifierChar (c : Char) : Bool :=
  isAlphabetic c || isNumeric c || c = '_'

/-- Whether a text may follow the first letter of an identifier; the empty text may. -/
def isFragment (text : String) : Bool :=
  text.toList.all isIdentifierChar

/-- Whether a character sequence is an identifier. -/
def isIdentifierChars : List Char → Bool
  | [] => false
  | c :: rest => isAlphabetic c && rest.all isIdentifierChar

/-- Whether a text is an identifier: a letter followed by a fragment. -/
def isIdentifier (text : String) : Bool :=
  isIdentifierChars text.toList

/-- Whether a text is a dotted list of identifiers that begin with capitals. -/
def isModuleName (text : String) : Bool :=
  (splitAtChar '.' text.toList).all fun segment =>
    isIdentifierChars segment && segment.head?.any isUppercase

/-- An identifier may follow a letter. -/
theorem isFragment_of_isIdentifier {id : String} (hid : isIdentifier id = true) :
    isFragment id = true := by
  unfold isIdentifier at hid
  unfold isFragment
  cases hchars : id.toList with
  | nil => rfl
  | cons c rest =>
      rw [hchars, isIdentifierChars, Bool.and_eq_true] at hid
      simp [isIdentifierChar, hid.1, hid.2]

/-- An identifier followed by a fragment is an identifier. -/
theorem isIdentifier_append {id fragment : String} (hid : isIdentifier id = true)
    (hfragment : isFragment fragment = true) : isIdentifier (id ++ fragment) = true := by
  unfold isIdentifier at hid ⊢
  unfold isFragment at hfragment
  rw [String.toList_append]
  cases hchars : id.toList with
  | nil => simp [hchars, isIdentifierChars] at hid
  | cons c rest =>
      rw [hchars] at hid
      simp only [isIdentifierChars, Bool.and_eq_true] at hid
      simp [isIdentifierChars, hid.1, hid.2, hfragment]

end Name
end ElmBinding
