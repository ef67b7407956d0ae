import ElmBinding.Name.Casing
import ElmBinding.Name.Legal
import ElmBinding.Schema.Scope
import Mathlib.Data.List.Basic

/-!
# Plain names

A plain name is made of the letters `a` to `z` and `A` to `Z`, digits, underscores and dots,
as the names of schemas are.  Casing turns every plain name into a legal identifier: dots
and underscores only cut, the placeholder stands in for a missing letter, and capitals and
small letters of this range stay in it.

Main results:

- Definition {lit}`isPlain`: names of letters, digits, underscores and dots.
- Theorem {lit}`isIdentifier_casing`: the identifier of a plain name is legal.
- Theorem {lit}`isPlain_withoutPackage`: a plain name stays plain without its package.
-/

namespace ElmBinding
namespace Name

open Text

/-- Whether a character may stand in a plain name. -/
def isPlainChar (c : Char) : Bool :=
  c.isAlphanum || c = '_' || c = '.'

/-- Whether a name is made of letters, digits, underscores and dots. -/
def isPlain (name : String) : Bool :=
  name.toList.all isPlainChar

/-! ## Letters and digits -/

/-- The letters and digits are among the first 128 code points. -/
theorem toNat_lt_of_isAlphanum {c : Char} (hc : c.isAlphanum = true) : c.toNat < 128 := by
  have hval : c.toNat = c.val.toNat := rfl
  delta Char.isAlphanum Char.isAlpha Char.isUpper Char.isLower Char.isDigit at hc
  simp [UInt32.le_iff_toNat_le] at hc
  omega

/-- What holds of the letters and digits by code point holds of them. -/
theorem of_isAlphanum (p : Char → Prop)
    (hall : ∀ n < 128, (Char.ofNat n).isAlphanum = true → p (Char.ofNat n)) {c : Char}
    (hc : c.isAlphanum = true) : p c := by
  have hp := hall c.toNat (toNat_lt_of_isAlphanum hc)
  rw [Char.ofNat_toNat] at hp
  exact hp hc

/-- The lowercase form of a letter or digit is one character. -/
theorem lowerChar_of_isAlphanum {c : Char} (hc : c.isAlphanum = true) :
    lowerChar c = [c.toLower] :=
  of_isAlphanum (fun c => lowerChar c = [c.toLower]) (by decide) hc

/-- The uppercase form of a letter or digit is one character. -/
theorem upperChar_of_isAlphanum {c : Char} (hc : c.isAlphanum = true) :
    upperChar c = [c.toUpper] :=
  of_isAlphanum (fun c => upperChar c = [c.toUpper]) (by decide) hc

/-- A letter or digit stays one in lowercase. -/
theorem isAlphanum_toLower {c : Char} (hc : c.isAlphanum = true) :
    c.toLower.isAlphanum = true :=
  of_isAlphanum (fun c => c.toLower.isAlphanum = true) (by decide) hc

/-- A letter or digit stays one in uppercase. -/
theorem isAlphanum_toUpper {c : Char} (hc : c.isAlphanum = true) :
    c.toUpper.isAlphanum = true :=
  of_isAlphanum (fun c => c.toUpper.isAlphanum = true) (by decide) hc

/-- Letters and digits may stand in identifiers. -/
theorem isIdentifierChar_of_isAlphanum {c : Char} (hc : c.isAlphanum = true) :
    isIdentifierChar c = true :=
  of_isAlphanum (fun c => isIdentifierChar c = true) (by decide) hc

/-- No letter or digit is a capital sigma, so lowercasing goes character by character. -/
theorem lowercaseAfter_of_isAlphanum {word : List Char} (casedBefore : Bool)
    (hword : ∀ c ∈ word, c.isAlphanum = true) :
    lowercaseAfter casedBefore word = word.map Char.toLower := by
  induction word generalizing casedBefore with
  | nil => rfl
  | cons c rest ih =>
      have hc : c.isAlphanum = true := hword c List.mem_cons_self
      have hsigma : c ≠ 'Σ' := by
        rintro rfl
        exact absurd hc (by decide)
      have hrest : ∀ c ∈ rest, c.isAlphanum = true := by
        intro other hother
        exact hword other (List.mem_cons_of_mem c hother)
      rw [lowercaseAfter, if_neg hsigma, lowerChar_of_isAlphanum hc, ih _ hrest]
      rfl

/-- The lowercase form of a word of letters and digits. -/
theorem lowercase_of_isAlphanum {word : List Char} (hword : ∀ c ∈ word, c.isAlphanum = true) :
    lowercase word = word.map Char.toLower :=
  lowercaseAfter_of_isAlphanum false hword

/-! ## Words -/

/-- The pieces of a text have no characters but those of the text that do not cut it. -/
theorem mem_of_mem_splitAtChar {mark c : Char} {text piece : List Char}
    (hpiece : piece ∈ splitAtChar mark text) (hc : c ∈ piece) : c ∈ text ∧ c ≠ mark := by
  induction text generalizing piece with
  | nil =>
      simp only [splitAtChar, List.mem_singleton] at hpiece
      subst hpiece
      simp at hc
  | cons head rest ih =>
      by_cases hhead : head = mark
      · simp only [splitAtChar, if_pos hhead, List.mem_cons] at hpiece
        rcases hpiece with rfl | hpiece
        · simp at hc
        · exact ⟨List.mem_cons_of_mem head (ih hpiece hc).1, (ih hpiece hc).2⟩
      · cases hsplit : splitAtChar mark rest with
        | nil => exact absurd hsplit (splitAtChar_ne_nil mark rest)
        | cons first others =>
            simp only [splitAtChar, if_neg hhead, hsplit, List.mem_cons] at hpiece
            rw [hsplit] at ih
            rcases hpiece with rfl | hpiece
            · rcases List.mem_cons.mp hc with rfl | hc
              · exact ⟨List.mem_cons_self, hhead⟩
              · have hfirst := ih List.mem_cons_self hc
                exact ⟨List.mem_cons_of_mem head hfirst.1, hfirst.2⟩
            · have hother := ih (List.mem_cons_of_mem first hpiece) hc
              exact ⟨List.mem_cons_of_mem head hother.1, hother.2⟩

/-- Collapsing runs of underscores adds no character. -/
theorem mem_of_mem_collapseUnderscores {c : Char} {text : List Char}
    (hc : c ∈ collapseUnderscores text) : c ∈ text := by
  induction text with
  | nil => simp [collapseUnderscores] at hc
  | cons head rest ih =>
      rw [collapseUnderscores] at hc
      split at hc
      · exact List.mem_cons_of_mem head (ih hc)
      · rcases List.mem_cons.mp hc with rfl | hc
        · exact List.mem_cons_self
        · exact List.mem_cons_of_mem head (ih hc)

/-- Cutting at changes of case adds no character. -/
theorem mem_of_mem_humpsFrom {capital : Bool} {c : Char} {begun text word : List Char}
    (hword : word ∈ humpsFrom capital begun text) (hc : c ∈ word) : c ∈ begun ∨ c ∈ text := by
  induction text generalizing capital begun with
  | nil =>
      simp only [humpsFrom, List.mem_singleton] at hword
      exact Or.inl (hword ▸ hc)
  | cons head rest ih =>
      rw [humpsFrom] at hword
      split at hword
      · rcases List.mem_cons.mp hword with rfl | hword
        · exact Or.inl hc
        · rcases ih hword with hbegun | hrest
          · right
            rw [List.mem_singleton.mp hbegun]
            exact List.mem_cons_self
          · exact Or.inr (List.mem_cons_of_mem head hrest)
      · rcases ih hword with hbegun | hrest
        · rcases List.mem_append.mp hbegun with hbegun | hhead
          · exact Or.inl hbegun
          · right
            rw [List.mem_singleton.mp hhead]
            exact List.mem_cons_self
        · exact Or.inr (List.mem_cons_of_mem head hrest)

/-- The words of a segment have its characters but the underscores, and the placeholder. -/
theorem mem_of_mem_segmentWords {c : Char} {segment word : List Char}
    (hword : word ∈ segmentWords segment) (hc : c ∈ word) :
    c = placeholder ∨ (c ∈ segment ∧ c ≠ '_') := by
  unfold segmentWords at hword
  rcases List.mem_map.mp hword with ⟨hump, hhump, rfl⟩
  rcases List.mem_flatMap.mp hhump with ⟨part, hpart, hhump⟩
  rw [fillWord] at hc
  split at hc
  · exact Or.inl (List.mem_singleton.mp hc)
  · right
    rcases mem_of_mem_humpsFrom hhump hc with hbegun | hc
    · simp at hbegun
    · have hcollapsed := mem_of_mem_splitAtChar hpart hc
      exact ⟨mem_of_mem_collapseUnderscores hcollapsed.1, hcollapsed.2⟩

/-- A word of the first segment is one of its words, led by the placeholder if need be. -/
theorem exists_of_mem_firstSegmentWords {segment word : List Char}
    (hword : word ∈ firstSegmentWords segment) :
    ∃ plain ∈ segmentWords segment, word = plain ∨ word = leadWithLetter plain := by
  unfold firstSegmentWords at hword
  cases hwords : segmentWords segment with
  | nil => simp [hwords] at hword
  | cons first others =>
      rw [hwords, List.modifyHead_cons, List.mem_cons] at hword
      rcases hword with rfl | hother
      · exact ⟨first, List.mem_cons_self, .inr rfl⟩
      · exact ⟨word, List.mem_cons_of_mem first hother, .inl rfl⟩

/-- The words of the first segment have no other characters either. -/
theorem mem_of_mem_firstSegmentWords {c : Char} {segment word : List Char}
    (hword : word ∈ firstSegmentWords segment) (hc : c ∈ word) :
    c = placeholder ∨ (c ∈ segment ∧ c ≠ '_') := by
  rcases exists_of_mem_firstSegmentWords hword with ⟨plain, hplain, rfl | rfl⟩
  · exact mem_of_mem_segmentWords hplain hc
  · rw [leadWithLetter] at hc
    split at hc
    · exact mem_of_mem_segmentWords hplain hc
    · rcases List.mem_cons.mp hc with rfl | hc
      · exact Or.inl rfl
      · exact mem_of_mem_segmentWords hplain hc

/-! ## Identifiers -/

/-- A word of letters and digits stays one in lowercase. -/
theorem isAlphanum_of_mem_lowercase {c : Char} {word : List Char}
    (hword : ∀ c ∈ word, c.isAlphanum = true) (hc : c ∈ lowercase word) :
    c.isAlphanum = true := by
  rw [lowercase_of_isAlphanum hword] at hc
  rcases List.mem_map.mp hc with ⟨other, hother, rfl⟩
  exact isAlphanum_toLower (hword other hother)

/-- A word of letters and digits stays one when its first character becomes a capital. -/
theorem isAlphanum_of_mem_capitalize {c : Char} {word : List Char}
    (hword : ∀ c ∈ word, c.isAlphanum = true) (hc : c ∈ capitalize word) :
    c.isAlphanum = true := by
  cases word with
  | nil => simp [capitalize] at hc
  | cons first rest =>
      rcases List.forall_mem_cons.mp hword with ⟨hfirst, hrest⟩
      rw [capitalize, upperChar_of_isAlphanum hfirst, List.singleton_append, List.mem_cons] at hc
      rcases hc with rfl | hc
      · exact isAlphanum_toUpper hfirst
      · exact isAlphanum_of_mem_lowercase hrest hc

/-- A word of letters and digits stays one when its first character loses its capital. -/
theorem isAlphanum_of_mem_uncapitalize {c : Char} {word : List Char}
    (hword : ∀ c ∈ word, c.isAlphanum = true) (hc : c ∈ uncapitalize word) :
    c.isAlphanum = true := by
  cases word with
  | nil => simp [uncapitalize] at hc
  | cons first rest =>
      rcases List.forall_mem_cons.mp hword with ⟨hfirst, hrest⟩
      rw [uncapitalize, lowerChar_of_isAlphanum hfirst, List.singleton_append, List.mem_cons] at hc
      rcases hc with rfl | hc
      · exact isAlphanum_toLower hfirst
      · exact isAlphanum_of_mem_lowercase hrest hc

/-- The first word of an identifier keeps to letters and digits in either role. -/
theorem isAlphanum_of_mem_openingWord {role : Role} {c : Char} {word : List Char}
    (hword : ∀ c ∈ word, c.isAlphanum = true) (hc : c ∈ openingWord role word) :
    c.isAlphanum = true := by
  cases role with
  | type => exact isAlphanum_of_mem_capitalize hword hc
  | value => exact isAlphanum_of_mem_uncapitalize hword hc

/-- Between the dots of a plain name stand letters, digits and underscores. -/
theorem isAlphanum_of_mem_segment {c : Char} {name : String} {segment : List Char}
    (hname : isPlain name = true) (hsegment : segment ∈ splitAtChar '.' name.toList)
    (hc : c ∈ segment) : c.isAlphanum = true ∨ c = '_' := by
  have hcut := mem_of_mem_splitAtChar hsegment hc
  have hplain := List.all_eq_true.mp hname c hcut.1
  simpa [isPlainChar, hcut.2] using hplain

/-- The cased segments of a plain name are made of letters and digits. -/
theorem isAlphanum_of_mem_casedPieces {role : Role} {name : String} {piece : List Char} {c : Char}
    (hname : isPlain name = true) (hpiece : piece ∈ casedPieces role name) (hc : c ∈ piece) :
    c.isAlphanum = true := by
  have hchar : ∀ {segment : List Char}, segment ∈ splitAtChar '.' name.toList → ∀ {c : Char},
      c = placeholder ∨ (c ∈ segment ∧ c ≠ '_') → c.isAlphanum = true := by
    rintro segment hsegment c (rfl | ⟨hmem, hunderscore⟩)
    · decide
    · exact (isAlphanum_of_mem_segment hname hsegment hmem).resolve_right hunderscore
  rw [casedPieces] at hpiece
  cases hsplit : splitAtChar '.' name.toList with
  | nil => exact absurd hsplit (splitAtChar_ne_nil '.' name.toList)
  | cons opening following =>
      rw [hsplit] at hpiece hchar
      rcases List.mem_cons.mp hpiece with rfl | hpiece
      · have hwords : ∀ word ∈ firstSegmentWords opening, ∀ c ∈ word, c.isAlphanum = true := by
          intro word hword c hc
          exact hchar List.mem_cons_self (mem_of_mem_firstSegmentWords hword hc)
        rw [openingPiece] at hc
        cases hfirst : firstSegmentWords opening with
        | nil => simp [hfirst] at hc
        | cons word words =>
            rw [hfirst] at hc hwords
            rcases List.mem_append.mp hc with hc | hc
            · exact isAlphanum_of_mem_openingWord (hwords word List.mem_cons_self) hc
            · rcases List.mem_flatten.mp hc with ⟨cased, hcased, hc⟩
              rcases List.mem_map.mp hcased with ⟨other, hother, rfl⟩
              exact isAlphanum_of_mem_capitalize
                (hwords other (List.mem_cons_of_mem word hother)) hc
      · rcases List.mem_map.mp hpiece with ⟨segment, hsegment, rfl⟩
        rcases List.mem_flatten.mp hc with ⟨cased, hcased, hc⟩
        rcases List.mem_map.mp hcased with ⟨word, hword, rfl⟩
        apply isAlphanum_of_mem_capitalize _ hc
        intro c hc
        exact hchar (List.mem_cons_of_mem opening hsegment) (mem_of_mem_segmentWords hword hc)

/-- Joined texts have the characters of the texts and of the separator. -/
theorem mem_of_mem_intercalate {c : Char} {separator : List Char} {pieces : List (List Char)}
    (hc : c ∈ separator.intercalate pieces) : c ∈ separator ∨ ∃ piece ∈ pieces, c ∈ piece := by
  induction pieces with
  | nil => simp at hc
  | cons piece rest ih =>
      cases rest with
      | nil =>
          rw [List.intercalate_singleton] at hc
          exact Or.inr ⟨piece, List.mem_cons_self, hc⟩
      | cons next others =>
          rw [List.intercalate_cons_cons, List.append_assoc, List.mem_append,
            List.mem_append] at hc
          rcases hc with hc | hc | hc
          · exact Or.inr ⟨piece, List.mem_cons_self, hc⟩
          · exact Or.inl hc
          · rcases ih hc with hseparator | ⟨other, hother, hc⟩
            · exact Or.inl hseparator
            · exact Or.inr ⟨other, List.mem_cons_of_mem piece hother, hc⟩

/-- The identifier of a plain name is legal, whatever joins its segments. -/
theorem isIdentifier_casing {role : Role} {separator name : String}
    (hname : isPlain name = true) (hseparator : isFragment separator = true) :
    isIdentifier (casing role separator name) = true := by
  have hjoined : ∀ c ∈ separator.toList.intercalate (casedPieces role name),
      isIdentifierChar c = true := by
    intro c hc
    rcases mem_of_mem_intercalate hc with hc | ⟨piece, hpiece, hc⟩
    · exact List.all_eq_true.mp hseparator c hc
    · exact isIdentifierChar_of_isAlphanum (isAlphanum_of_mem_casedPieces hname hpiece hc)
  unfold casing isIdentifier
  rw [String.toList_ofList]
  by_cases hletter : startsWithLetter (separator.toList.intercalate (casedPieces role name)) = true
  · rw [if_pos hletter]
    cases hchars : separator.toList.intercalate (casedPieces role name) with
    | nil => simp [hchars, startsWithLetter] at hletter
    | cons first rest =>
        rw [hchars] at hletter hjoined
        have hfirst : isAlphabetic first = true := by
          simpa [startsWithLetter] using hletter
        have hrest : rest.all isIdentifierChar = true := by
          apply List.all_eq_true.mpr
          intro c hc
          exact hjoined c (List.mem_cons_of_mem first hc)
        simp [isIdentifierChars, hfirst, hrest]
  · rw [if_neg hletter]
    have hplaceholder : isAlphabetic role.placeholder = true := by
      cases role <;> decide
    simp only [isIdentifierChars, hplaceholder, Bool.true_and]
    exact List.all_eq_true.mpr hjoined

/-! ## Parts of plain names -/

/-- Names are plain together if each of them is. -/
theorem isPlain_append (first second : String) :
    isPlain (first ++ second) = (isPlain first && isPlain second) := by
  rw [isPlain, String.toList_append, List.all_append]
  rfl

/-- A plain name stays plain without its package. -/
theorem isPlain_withoutPackage {package fullName : String} (hname : isPlain fullName = true) :
    isPlain (withoutPackage package fullName) = true := by
  rw [withoutPackage]
  split
  · exact hname
  · rw [dropQualifier]
    split
    · rename_i rest hrest
      unfold isPlain at hname ⊢
      rw [← List.append_eq_of_isPrefixOf?_eq_some hrest, List.all_append,
        Bool.and_eq_true] at hname
      rw [String.toList_ofList]
      exact hname.2
    · exact hname

end Name
end ElmBinding
