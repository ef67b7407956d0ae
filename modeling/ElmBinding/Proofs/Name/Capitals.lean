import ElmBinding.Name.Reserved
import ElmBinding.Naming.Binding
import ElmBinding.Proofs.Name.Casing

/-!
# Type names and reserved words

The type name of a plain name begins with a capital.  A reserved word with a capital at its
front is the front of no other reserved word, so one suffix moves a type name away from all of
them.  The names of zero values, decoders, encoders and fuzzers are no reserved words at all.

Main results:

- Theorem {lit}`isCapitalized_casing`: the type name of a plain name begins with a capital.
- Theorem {lit}`isReserved_append`: a reserved type name with a suffix is not reserved.
- Theorems {lit}`isReserved_zeroName`, {lit}`isReserved_decoderName`,
  {lit}`isReserved_encoderName` and {lit}`isReserved_fuzzerName`: derived names are not reserved.
-/

namespace ElmBinding
namespace Name

open Text

/-! ## Capitals -/

/-- Whether a text begins with a capital from `A` to `Z`. -/
def isCapitalized (text : List Char) : Bool :=
  text.head?.any Char.isUpper

/-- The type name of a plain name begins with a capital. -/
theorem isCapitalized_casing {name : String} (separator : String) (hname : isPlain name = true) :
    isCapitalized (casing .type separator name).toList = true := by
  rcases exists_casing separator hname with ⟨letter, rest, halpha, hcasing⟩
  rw [hcasing, isCapitalized, List.head?_cons, Option.any_some]
  exact isUpper_initial halpha

/-! ## Reserved words -/

/-- A reserved word with a capital at its front is the front of no other reserved word. -/
theorem eq_of_isPrefixOf_reserved : ∀ word ∈ reservedWords, isCapitalized word.toList = true →
    ∀ other ∈ reservedWords, word.toList.isPrefixOf other.toList = true → word = other := by
  decide +kernel

/-- A reserved type name with a suffix is not reserved. -/
theorem isReserved_append {word suffix : String} (hcapital : isCapitalized word.toList = true)
    (hword : isReserved word = true) (hsuffix : suffix ≠ "") :
    isReserved (word ++ suffix) = false := by
  rw [Bool.eq_false_iff]
  intro hreserved
  unfold isReserved at hword hreserved
  rw [List.contains_iff_mem] at hword hreserved
  have hfront : word.toList.isPrefixOf (word ++ suffix).toList = true := by
    rw [String.toList_append, List.isPrefixOf_iff_prefix]
    exact List.prefix_append _ _
  have heq := eq_of_isPrefixOf_reserved word hword hcapital _ hreserved hfront
  have hchars := congrArg String.toList heq
  rw [String.toList_append, List.self_eq_append_right] at hchars
  exact hsuffix (String.toList_eq_nil_iff.mp hchars)

/-- A text that begins in a way in which no reserved word does is not reserved. -/
theorem isReserved_of_front {front : String} (id : String)
    (hfront : ∀ word ∈ reservedWords, front.toList.isPrefixOf word.toList = false) :
    isReserved (front ++ id) = false := by
  rw [Bool.eq_false_iff]
  intro hreserved
  unfold isReserved at hreserved
  rw [List.contains_iff_mem] at hreserved
  have hnone := hfront _ hreserved
  rw [String.toList_append, Bool.eq_false_iff, Ne, List.isPrefixOf_iff_prefix] at hnone
  exact hnone (List.prefix_append _ _)

/-- A text that ends in a way in which no reserved word does is not reserved. -/
theorem isReserved_of_end {ending : String} (stem : String)
    (hending : ∀ word ∈ reservedWords, ending.toList.isSuffixOf word.toList = false) :
    isReserved (stem ++ ending) = false := by
  rw [Bool.eq_false_iff]
  intro hreserved
  unfold isReserved at hreserved
  rw [List.contains_iff_mem] at hreserved
  have hnone := hending _ hreserved
  rw [String.toList_append, Bool.eq_false_iff, Ne, List.isSuffixOf_iff_suffix] at hnone
  exact hnone (List.suffix_append _ _)

end Name

open Name

/-- The name of a zero value is not reserved. -/
theorem isReserved_zeroName (id : String) : isReserved (zeroName id) = false :=
  isReserved_of_front id (by decide +kernel)

/-- The name of a decoder is not reserved. -/
theorem isReserved_decoderName (stem : String) : isReserved (decoderName stem) = false :=
  isReserved_of_end stem (by decide +kernel)

/-- The name of an encoder is not reserved. -/
theorem isReserved_encoderName (stem : String) : isReserved (encoderName stem) = false :=
  isReserved_of_end stem (by decide +kernel)

/-- The name of a fuzzer is not reserved. -/
theorem isReserved_fuzzerName (stem : String) : isReserved (fuzzerName stem) = false :=
  isReserved_of_end stem (by decide +kernel)

end ElmBinding
