import ElmBinding.Proofs.Name.Words

/-!
# Casing of plain names

The type name and the value name of a plain name are the same but for the case of the first
letter.  With an underscore as the separator the segments of a name can be told apart in its
identifier, since no cased segment has an underscore in it or is empty.

Main results:

- Theorem {lit}`exists_casing`: the first letter of a name in each role, and what is behind it.
- Theorem {lit}`casing_in_both_roles`: the type name and the value name of a plain name.
- Definition {lit}`pieceAt`: the cased form of one segment of a name.
- Theorem {lit}`casing_underscore`: which names have one identifier with underscores.
-/

namespace ElmBinding
namespace Name

open Text

/-! ## Type names and value names -/

/-- A letter as the first one of an identifier. -/
def Role.initial : Role → Char → Char
  | .type => Char.toUpper
  | .value => Char.toLower

/-- The first letter of an identifier is a letter. -/
theorem isAlphabetic_initial (role : Role) {letter : Char} (hletter : letter.isAlpha = true) :
    isAlphabetic (role.initial letter) = true := by
  have halphanum : letter.isAlphanum = true := by simp [Char.isAlphanum, hletter]
  cases role with
  | type =>
      exact of_isAlphanum (fun c => c.isAlpha = true → isAlphabetic c.toUpper = true)
        (by decide) halphanum hletter
  | value =>
      exact of_isAlphanum (fun c => c.isAlpha = true → isAlphabetic c.toLower = true)
        (by decide) halphanum hletter

/-- A letter becomes a capital at the front of a type name. -/
theorem isUpper_initial {letter : Char} (hletter : letter.isAlpha = true) :
    (Role.type.initial letter).isUpper = true :=
  of_isAlphanum (fun c => c.isAlpha = true → c.toUpper.isUpper = true) (by decide)
    (by simp [Char.isAlphanum, hletter]) hletter

/-- A letter becomes a small one at the front of a value name. -/
theorem isLower_initial {letter : Char} (hletter : letter.isAlpha = true) :
    (Role.value.initial letter).isLower = true :=
  of_isAlphanum (fun c => c.isAlpha = true → c.toLower.isLower = true) (by decide)
    (by simp [Char.isAlphanum, hletter]) hletter

/-- The letters at the fronts of the two names differ in their case. -/
theorem toLower_initial {letter : Char} (hletter : letter.isAlpha = true) :
    (Role.type.initial letter).toLower = Role.value.initial letter :=
  of_isAlphanum (fun c => c.toUpper.toLower = c.toLower) (by decide)
    (by simp [Char.isAlphanum, hletter])

/-- The first word of an identifier has its first character in the case of the role. -/
theorem openingWord_cons (role : Role) {c : Char} (hc : c.isAlphanum = true) (rest : List Char) :
    openingWord role (c :: rest) = role.initial c :: lowercase rest := by
  cases role with
  | type => simp [openingWord, capitalize, upperChar_of_isAlphanum hc, Role.initial]
  | value => simp [openingWord, uncapitalize, lowerChar_of_isAlphanum hc, Role.initial]

/-- The first segment of a plain name begins with a letter, and only its case hangs on the role. -/
theorem exists_openingPiece_of_isPlain {name : String} {segment : List Char}
    (hname : isPlain name = true) (hsegment : segment ∈ splitAtChar '.' name.toList) :
    ∃ letter rest, letter.isAlpha = true ∧
      ∀ role : Role, openingPiece role segment = role.initial letter :: rest := by
  rcases exists_firstWord segment with ⟨c, word, words, hwords, hletter⟩
  have halphanum : c.isAlphanum = true := by
    have hfirst : c :: word ∈ firstSegmentWords segment := by simp [hwords]
    rcases mem_of_mem_firstSegmentWords hfirst List.mem_cons_self with rfl | ⟨hmem, hplain⟩
    · decide
    · exact (isAlphanum_of_mem_segment hname hsegment hmem).resolve_right hplain
  have halpha : c.isAlpha = true :=
    of_isAlphanum (fun c => isAlphabetic c = true → c.isAlpha = true) (by decide) halphanum hletter
  refine ⟨c, lowercase word ++ (words.map capitalize).flatten, halpha, fun role => ?_⟩
  simp only [openingPiece, hwords]
  rw [openingWord_cons role halphanum, List.cons_append]

/-- The joined pieces of a plain name begin with a letter, and only its case hangs on the role. -/
theorem exists_joined {name : String} (separator : String) (hname : isPlain name = true) :
    ∃ letter rest, letter.isAlpha = true ∧
      ∀ role, separator.toList.intercalate (casedPieces role name) =
        role.initial letter :: rest := by
  cases hsplit : splitAtChar '.' name.toList with
  | nil => exact absurd hsplit (splitAtChar_ne_nil _ _)
  | cons segment segments =>
      have hmem : segment ∈ splitAtChar '.' name.toList := by simp [hsplit]
      rcases exists_openingPiece_of_isPlain hname hmem with ⟨letter, first, halpha, hpiece⟩
      cases segments with
      | nil =>
          refine ⟨letter, first, halpha, fun role => ?_⟩
          simp only [casedPieces, hsplit, List.map_nil]
          rw [List.intercalate_singleton, hpiece]
      | cons next others =>
          refine ⟨letter, first ++ separator.toList ++
            separator.toList.intercalate ((next :: others).map followingPiece), halpha,
            fun role => ?_⟩
          simp only [casedPieces, hsplit, List.map_cons]
          rw [List.intercalate_cons_cons, hpiece, List.cons_append, List.cons_append]

/-- No placeholder goes in front of the joined pieces of a plain name. -/
theorem toList_casing {name : String} (role : Role) (separator : String)
    (hname : isPlain name = true) :
    (casing role separator name).toList = separator.toList.intercalate (casedPieces role name) := by
  rcases exists_joined separator hname with ⟨letter, rest, halpha, hjoined⟩
  rw [casing, String.toList_ofList, if_pos]
  rw [hjoined, startsWithLetter, List.head?_cons, Option.any_some]
  exact isAlphabetic_initial role halpha

/-- An identifier begins with a letter of its name in the case of its role. -/
theorem exists_casing {name : String} (separator : String) (hname : isPlain name = true) :
    ∃ letter rest, letter.isAlpha = true ∧
      ∀ role, (casing role separator name).toList = role.initial letter :: rest := by
  rcases exists_joined separator hname with ⟨letter, rest, halpha, hjoined⟩
  exact ⟨letter, rest, halpha, fun role => by rw [toList_casing role separator hname, hjoined]⟩

/--
The type name and the value name of a plain name are identifiers, one with a capital at its front
and one with a small letter, and they do not differ in anything else.
-/
theorem casing_in_both_roles {name separator : String} (hname : isPlain name = true)
    (hseparator : isFragment separator = true) :
    (∀ role, isIdentifier (casing role separator name) = true) ∧
      ∃ capital small rest, (casing .type separator name).toList = capital :: rest ∧
        (casing .value separator name).toList = small :: rest ∧
        capital.isUpper = true ∧ small.isLower = true ∧ capital.toLower = small := by
  refine ⟨fun role => isIdentifier_casing hname hseparator, ?_⟩
  rcases exists_casing separator hname with ⟨letter, rest, halpha, hcasing⟩
  exact ⟨_, _, rest, hcasing .type, hcasing .value, isUpper_initial halpha,
    isLower_initial halpha, toLower_initial halpha⟩

/-- A name with nothing but digits, underscores and dots at its front, and a separator of both. -/
theorem casing_dotsAndDigits :
    isPlain "..9_URLTag_" = true ∧ isFragment "_1" = true ∧
      casing .type "_1" "..9_URLTag_" = "X_1X_19UrlTagX" ∧
      casing .value "_1" "..9_URLTag_" = "x_1X_19UrlTagX" ∧
      isIdentifier "X_1X_19UrlTagX" = true ∧ isIdentifier "x_1X_19UrlTagX" = true := by
  have hplain : isPlain "..9_URLTag_" = true := by decide
  have hfragment : isFragment "_1" = true := by decide
  have htype : casing .type "_1" "..9_URLTag_" = "X_1X_19UrlTagX" := by decide +kernel
  have hvalue : casing .value "_1" "..9_URLTag_" = "x_1X_19UrlTagX" := by decide +kernel
  rcases casing_in_both_roles hplain hfragment with ⟨hidentifier, -⟩
  exact ⟨hplain, hfragment, htype, hvalue, htype ▸ hidentifier .type,
    hvalue ▸ hidentifier .value⟩

/-! ## Segments in identifiers -/

/-- The segments of a dotted name. -/
def segmentsOf (name : String) : List (List Char) :=
  splitAtChar '.' name.toList

/-- The cased form of the segment at an index of a name. -/
def pieceAt (role : Role) (index : Nat) (segment : List Char) : List Char :=
  if index = 0 then openingPiece role segment else followingPiece segment

/-- Each segment of a name is cased by itself. -/
theorem casedPieces_eq (role : Role) (name : String) :
    casedPieces role name = (segmentsOf name).mapIdx (pieceAt role) := by
  unfold casedPieces segmentsOf
  cases splitAtChar '.' name.toList with
  | nil => rfl
  | cons segment segments =>
      have hfollowing : segments.mapIdx (fun index => pieceAt role (index + 1)) =
          segments.map followingPiece := by
        apply List.ext_getElem?
        intro index
        rw [List.getElem?_mapIdx, List.getElem?_map]
        rfl
      rw [List.mapIdx_cons, hfollowing]
      rfl

/-- A cased word is not empty. -/
theorem capitalize_ne_nil {word : List Char} (hsome : word ≠ [])
    (hword : ∀ c ∈ word, c.isAlphanum = true) : capitalize word ≠ [] := by
  cases word with
  | nil => contradiction
  | cons c rest =>
      rw [capitalize, upperChar_of_isAlphanum (hword c List.mem_cons_self), List.singleton_append]
      exact List.cons_ne_nil _ _

/-- The cased segments of a plain name are not empty. -/
theorem pieceAt_ne_nil {name : String} {segment : List Char} (role : Role) (index : Nat)
    (hname : isPlain name = true) (hsegment : segment ∈ segmentsOf name) :
    pieceAt role index segment ≠ [] := by
  rw [pieceAt]
  split
  · rcases exists_openingPiece_of_isPlain hname hsegment with ⟨letter, rest, -, hpiece⟩
    rw [hpiece]
    exact List.cons_ne_nil _ _
  · rcases List.exists_cons_of_ne_nil (segmentWords_ne_nil segment) with ⟨word, words, hwords⟩
    have hmem : word ∈ segmentWords segment := by simp [hwords]
    have hword : ∀ c ∈ word, c.isAlphanum = true := by
      intro c hc
      rcases mem_of_mem_segmentWords hmem hc with rfl | ⟨hc, hplain⟩
      · decide
      · exact (isAlphanum_of_mem_segment hname hsegment hc).resolve_right hplain
    rw [followingPiece, hwords, List.map_cons, List.flatten_cons, Ne, List.append_eq_nil_iff,
      not_and]
    exact fun hnil => absurd hnil (capitalize_ne_nil (ne_nil_of_mem_segmentWords hmem) hword)

/-- With underscores between them, the cased segments of a plain name can be cut apart again. -/
theorem splitAtChar_casing {name : String} (role : Role) (hname : isPlain name = true) :
    splitAtChar '_' (casing role "_" name).toList = casedPieces role name := by
  rw [toList_casing role "_" hname]
  apply splitAtChar_intercalate
  · rw [casedPieces_eq, Ne, List.mapIdx_eq_nil_iff]
    exact splitAtChar_ne_nil _ _
  · intro piece hpiece hunderscore
    exact absurd (isAlphanum_of_mem_casedPieces hname hpiece hunderscore) (by decide)

/-- Two lists are mapped to the same if they are as long and each element is. -/
theorem mapIdx_eq_mapIdx {α β : Type} {f : Nat → α → β} {items items' : List α} :
    items.mapIdx f = items'.mapIdx f ↔ items.length = items'.length ∧
      ∀ index a b, items[index]? = some a → items'[index]? = some b → f index a = f index b := by
  constructor
  · intro h
    refine ⟨by simpa using congrArg List.length h, fun index a b ha hb => ?_⟩
    have hindex := congrArg (fun mapped => mapped[index]?) h
    simpa [List.getElem?_mapIdx, ha, hb] using hindex
  · rintro ⟨hlength, hitems⟩
    apply List.ext_getElem?
    intro index
    rw [List.getElem?_mapIdx, List.getElem?_mapIdx]
    by_cases hindex : index < items.length
    · have ha := List.getElem?_eq_getElem hindex
      have hb := List.getElem?_eq_getElem (hlength ▸ hindex)
      rw [ha, hb, Option.map_some, Option.map_some, hitems index _ _ ha hb]
    · rw [List.getElem?_eq_none (by omega), List.getElem?_eq_none (by omega)]

/--
With underscores between them, the segments of a plain name can be told apart in its identifier.
Two names have the same one only if they have as many segments and these are cased alike, each by
itself and by whether it is the first.
-/
theorem casing_underscore (role : Role) {name other : String} (hname : isPlain name = true)
    (hother : isPlain other = true) :
    splitAtChar '_' (casing role "_" name).toList = (segmentsOf name).mapIdx (pieceAt role) ∧
      [] ∉ splitAtChar '_' (casing role "_" name).toList ∧
      (casing role "_" name = casing role "_" other ↔
        (segmentsOf name).length = (segmentsOf other).length ∧
          ∀ index segment segment', (segmentsOf name)[index]? = some segment →
            (segmentsOf other)[index]? = some segment' →
              pieceAt role index segment = pieceAt role index segment') := by
  have hpieces := splitAtChar_casing role hname
  refine ⟨hpieces.trans (casedPieces_eq role name), ?_, ?_⟩
  · rw [hpieces, casedPieces_eq, List.mem_mapIdx]
    rintro ⟨index, hindex, hnil⟩
    exact pieceAt_ne_nil role index hname (List.getElem_mem hindex) hnil
  · rw [← mapIdx_eq_mapIdx, ← casedPieces_eq, ← casedPieces_eq]
    constructor
    · intro hcasing
      rw [← hpieces, hcasing, splitAtChar_casing role hother]
    · intro hcased
      rw [casing, casing, hcased]

/-- Two spellings of one name have the same identifier, and so do their segments. -/
theorem casing_underscore_urlTag :
    isPlain "url_tag.id" = true ∧ isPlain "URLTag.Id" = true ∧
      casing .value "_" "url_tag.id" = "urlTag_Id" ∧
      casing .value "_" "URLTag.Id" = "urlTag_Id" ∧
      splitAtChar '_' "urlTag_Id".toList =
        (segmentsOf "url_tag.id").mapIdx (pieceAt .value) ∧
      (segmentsOf "url_tag.id").length = (segmentsOf "URLTag.Id").length ∧
      pieceAt .value 0 "url_tag".toList = pieceAt .value 0 "URLTag".toList ∧
      pieceAt .value 1 "id".toList = pieceAt .value 1 "Id".toList := by
  have hname : isPlain "url_tag.id" = true := by decide
  have hother : isPlain "URLTag.Id" = true := by decide
  have hcasing : casing .value "_" "url_tag.id" = "urlTag_Id" := by decide +kernel
  have hspelling : casing .value "_" "URLTag.Id" = "urlTag_Id" := by decide +kernel
  rcases casing_underscore .value hname hother with ⟨hsplit, -, hsame⟩
  rw [hcasing] at hsplit hsame
  rcases hsame.mp hspelling.symm with ⟨hlength, hpieces⟩
  exact ⟨hname, hother, hcasing, hspelling, hsplit, hlength, hpieces 0 _ _ rfl rfl,
    hpieces 1 _ _ rfl rfl⟩

end Name
end ElmBinding
