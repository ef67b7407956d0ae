import ElmBinding.Name.ModuleName
import ElmBinding.Proofs.Name.Capitals
import ElmBinding.Proofs.Text.CaseImages

/-!
# Legal module names

The name of a module is made of its source segment by segment.  Nothing is taken out of a
segment but underscores, and nothing is checked afterwards, so a character that may not stand in
an identifier gets into the name.  Letters get there in another case.  A few of them have no
capital or become several characters of which some are no letters, and then the name is not
legal either.

Main results:

- Definition {lit}`Legible`: segments with legal characters that stay legal where they are cased.
- Theorem {lit}`exists_word_of_mem`: the words of a segment have all its characters.
- Theorem {lit}`isTypeSegment_openingPiece_iff`: which segments become type names.
- Theorem {lit}`isModuleName_packageModule_iff`: which sources have a legal module name.
- Theorem {lit}`legible_of_isPlain`: the segments of plain names are legible.
-/

namespace ElmBinding
namespace Name

open Text

/-! ## Characters of words -/

/-- Collapsing runs of underscores keeps all other characters. -/
theorem mem_collapseUnderscores {c : Char} {text : List Char} (hc : c ∈ text) (hword : c ≠ '_') :
    c ∈ collapseUnderscores text := by
  induction text with
  | nil => contradiction
  | cons head rest ih =>
      rw [collapseUnderscores]
      split
      · rename_i hskip
        rw [Bool.and_eq_true, decide_eq_true_eq] at hskip
        rcases List.mem_cons.mp hc with rfl | hc
        · exact absurd hskip.1 hword
        · exact ih hc
      · rcases List.mem_cons.mp hc with rfl | hc
        · exact List.mem_cons_self
        · exact List.mem_cons_of_mem head (ih hc)

/-- The pieces of a text have all its characters but the mark. -/
theorem exists_piece_of_mem {mark c : Char} {text : List Char} (hc : c ∈ text) (hmark : c ≠ mark) :
    ∃ piece ∈ splitAtChar mark text, c ∈ piece := by
  rw [← intercalate_splitAtChar mark text] at hc
  rcases mem_of_mem_intercalate hc with hc | hpiece
  · exact absurd (List.mem_singleton.mp hc) hmark
  · exact hpiece

/-- The words of a segment have all its characters but the underscores. -/
theorem exists_word_of_mem {c : Char} {segment : List Char} (hc : c ∈ segment) (hword : c ≠ '_') :
    ∃ word ∈ firstSegmentWords segment, c ∈ word := by
  have hsegment : ∃ word ∈ segmentWords segment, c ∈ word := by
    rcases exists_piece_of_mem (mem_collapseUnderscores hc hword) hword with ⟨part, hpart, hc⟩
    have hflatten := flatten_humpsFrom false [] part
    rw [List.nil_append] at hflatten
    rw [← hflatten] at hc
    rcases List.mem_flatten.mp hc with ⟨hump, hhump, hc⟩
    refine ⟨fillWord hump, List.mem_map_of_mem (List.mem_flatMap.mpr ⟨part, hpart, hhump⟩), ?_⟩
    have hfilled : hump.isEmpty = false := by
      cases hump with
      | nil => contradiction
      | cons first rest => rfl
    rw [fillWord, hfilled]
    exact hc
  rcases hsegment with ⟨word, hmem, hc⟩
  unfold firstSegmentWords
  cases hwords : segmentWords segment with
  | nil => simp [hwords] at hmem
  | cons first others =>
      rw [hwords] at hmem
      rw [List.modifyHead_cons]
      rcases List.mem_cons.mp hmem with rfl | hother
      · refine ⟨leadWithLetter word, List.mem_cons_self, ?_⟩
        rw [leadWithLetter]
        split
        · exact hc
        · exact List.mem_cons_of_mem _ hc
      · exact ⟨word, List.mem_cons_of_mem _ hother, hc⟩

/-! ## Type names of segments -/

/-- The type name of a segment is made of its words, each with a capital. -/
theorem openingPiece_type (segment : List Char) :
    openingPiece .type segment = (firstSegmentWords segment).flatMap capitalize := by
  rw [openingPiece]
  cases firstSegmentWords segment with
  | nil => rfl
  | cons word words => rw [List.flatMap_cons, List.flatMap_def]; rfl

/-- The type name of a segment begins with the capital form of its first letter. -/
theorem exists_openingPiece (segment : List Char) :
    ∃ c word words first rest, firstSegmentWords segment = (c :: word) :: words ∧
      upperChar c = first :: rest ∧ isAlphabetic first = true ∧
      (openingPiece .type segment).head? = some first := by
  rcases exists_firstWord segment with ⟨c, word, words, hwords, hletter⟩
  rcases exists_head_upperChar hletter with ⟨first, rest, hupper, hfirst⟩
  refine ⟨c, word, words, first, rest, hwords, hupper, hfirst, ?_⟩
  rw [openingPiece_type, hwords, List.flatMap_cons, capitalize, hupper]
  rfl

/-- A segment is a name of its own, and casing adds no placeholder to it. -/
theorem casing_type_segment {segment : List Char} (h : '.' ∉ segment) :
    (casing .type "" (String.ofList segment)).toList = openingPiece .type segment := by
  rcases exists_openingPiece segment with ⟨c, word, words, first, rest, -, -, hfirst, hhead⟩
  have hpieces : casedPieces .type (String.ofList segment) = [openingPiece .type segment] := by
    rw [casedPieces, String.toList_ofList, splitAtChar_of_notMem h]
    rfl
  have hletter : startsWithLetter (openingPiece .type segment) = true := by
    rw [startsWithLetter, hhead, Option.any_some, hfirst]
  rw [casing, String.toList_ofList, hpieces, List.intercalate_singleton, if_pos hletter]

/-- Whether a text is an identifier that begins with a capital. -/
def isTypeSegment (text : List Char) : Bool :=
  isIdentifierChars text && text.head?.any isUppercase

/--
A segment that makes a type name: its characters may stand in identifiers, its first letter has a
capital, and its words stay legal when they are cased.
-/
structure Legible (segment : List Char) : Prop where
  chars : ∀ c ∈ segment, isIdentifierChar c = true
  capital : ∀ c rest words, firstSegmentWords segment = (c :: rest) :: words →
    (upperChar c).head?.any isUppercase = true
  words : ∀ c rest, c :: rest ∈ firstSegmentWords segment →
    (upperChar c).all isIdentifierChar = true ∧ 'İ' ∉ rest

/-- A word makes a legal part of a type name if its characters stay legal where they are cased. -/
theorem all_capitalize_iff {c : Char} {rest : List Char} :
    (capitalize (c :: rest)).all isIdentifierChar = true ↔
      (upperChar c).all isIdentifierChar = true ∧
        ∀ other ∈ rest, isIdentifierChar other = true ∧ other ≠ 'İ' := by
  rw [capitalize, List.all_append, Bool.and_eq_true, lowercase, all_lowercaseAfter_iff]

/-- A text that begins with a letter is an identifier if all its characters are legal. -/
theorem isIdentifierChars_iff {text : List Char} {first : Char} (hhead : text.head? = some first)
    (hfirst : isAlphabetic first = true) :
    isIdentifierChars text = true ↔ ∀ c ∈ text, isIdentifierChar c = true := by
  rcases List.head?_eq_some_iff.mp hhead with ⟨rest, rfl⟩
  rw [isIdentifierChars, hfirst, Bool.true_and, List.all_eq_true, List.forall_mem_cons]
  exact (and_iff_right (isIdentifierChar_of_isAlphabetic hfirst)).symm

/-- The words of a segment stay legal with capitals if its characters do where they are cased. -/
theorem forall_capitalize_iff {segment : List Char} :
    (∀ word ∈ firstSegmentWords segment, (capitalize word).all isIdentifierChar = true) ↔
      (∀ c ∈ segment, isIdentifierChar c = true) ∧
        ∀ c rest, c :: rest ∈ firstSegmentWords segment →
          (upperChar c).all isIdentifierChar = true ∧ 'İ' ∉ rest := by
  constructor
  · intro hwords
    refine ⟨?_, ?_⟩
    · intro c hc
      by_cases hunderscore : c = '_'
      · subst hunderscore
        decide
      · rcases exists_word_of_mem hc hunderscore with ⟨word, hword, hc⟩
        cases word with
        | nil => contradiction
        | cons first rest =>
            rcases all_capitalize_iff.mp (hwords _ hword) with ⟨hupper, hrest⟩
            rcases List.mem_cons.mp hc with rfl | hc
            · exact isIdentifierChar_of_upperChar hupper
            · exact (hrest c hc).1
    · intro c rest hword
      rcases all_capitalize_iff.mp (hwords _ hword) with ⟨hupper, hrest⟩
      exact ⟨hupper, fun hdotted => (hrest 'İ' hdotted).2 rfl⟩
  · rintro ⟨hchars, hcased⟩ word hword
    cases word with
    | nil => rfl
    | cons first rest =>
        rcases hcased first rest hword with ⟨hupper, hdotted⟩
        refine all_capitalize_iff.mpr ⟨hupper, ?_⟩
        intro other hother
        refine ⟨?_, fun heq => hdotted (heq ▸ hother)⟩
        rcases mem_of_mem_firstSegmentWords hword (List.mem_cons_of_mem first hother) with
          rfl | ⟨hmem, -⟩
        · decide
        · exact hchars other hmem

/-- A segment becomes a type name if it is legible. -/
theorem isTypeSegment_openingPiece_iff {segment : List Char} :
    isTypeSegment (openingPiece .type segment) = true ↔ Legible segment := by
  rcases exists_openingPiece segment with
    ⟨c, word, words, first, rest, hwords, hupper, hfirst, hhead⟩
  have hchars : isIdentifierChars (openingPiece .type segment) = true ↔
      ∀ word ∈ firstSegmentWords segment, (capitalize word).all isIdentifierChar = true := by
    rw [isIdentifierChars_iff hhead hfirst, openingPiece_type, ← List.all_eq_true,
      List.all_flatMap, List.all_eq_true]
  have hcapital : (openingPiece .type segment).head?.any isUppercase = true ↔
      ∀ c rest words, firstSegmentWords segment = (c :: rest) :: words →
        (upperChar c).head?.any isUppercase = true := by
    rw [hhead]
    constructor
    · intro huppercase other others behind hother
      rw [hwords] at hother
      simp only [List.cons.injEq] at hother
      rw [← hother.1.1, hupper]
      exact huppercase
    · intro hall
      have huppercase := hall c word words hwords
      rw [hupper] at huppercase
      exact huppercase
  rw [isTypeSegment, Bool.and_eq_true, hchars, hcapital, forall_capitalize_iff]
  constructor
  · rintro ⟨⟨hlegal, hcased⟩, hfirst⟩
    exact ⟨hlegal, hfirst, hcased⟩
  · intro hlegible
    exact ⟨⟨hlegible.chars, hlegible.words⟩, hlegible.capital⟩

/-- The type name of a segment without a dot has no dot. -/
theorem dot_notMem_openingPiece {segment : List Char} (h : '.' ∉ segment) :
    '.' ∉ openingPiece .type segment := by
  rw [openingPiece_type]
  intro hmem
  rcases List.mem_flatMap.mp hmem with ⟨word, hword, hdot⟩
  have hplain : '.' ∉ word := by
    intro hdot
    rcases mem_of_mem_firstSegmentWords hword hdot with hplaceholder | ⟨hdot, -⟩
    · contradiction
    · exact h hdot
  cases word with
  | nil => contradiction
  | cons first rest =>
      rw [List.mem_cons, not_or] at hplain
      rw [capitalize] at hdot
      rcases List.mem_append.mp hdot with hdot | hdot
      · exact dot_notMem_upperChar (Ne.symm hplain.1) hdot
      · exact dot_notMem_lowercaseAfter hplain.2 hdot

/-! ## Modules of sources -/

/-- A module name is legal if each of its segments is a type name. -/
theorem isModuleName_iff {name : String} :
    isModuleName name = true ↔ ∀ segment ∈ splitAtChar '.' name.toList,
      isTypeSegment segment = true := by
  rw [isModuleName, List.all_eq_true]
  rfl

/-- The segments of a module name without a prefix are the type names of those of its source. -/
theorem splitAtChar_packageModule (source : String) :
    splitAtChar '.' (packageModule "" source).toList =
      (splitAtChar '.' source.toList).map (openingPiece .type) := by
  have hdotless : ∀ segment ∈ splitAtChar '.' source.toList, '.' ∉ segment :=
    fun segment hsegment hdot => (mem_of_mem_splitAtChar hsegment hdot).2 rfl
  have hnames : ((splitAtChar '.' source.toList).map fun segment =>
      casing .type "" (String.ofList segment)).map String.toList =
        (splitAtChar '.' source.toList).map (openingPiece .type) := by
    rw [List.map_map]
    exact List.map_congr_left fun segment hsegment =>
      casing_type_segment (hdotless segment hsegment)
  simp only [packageModule, if_true]
  rw [String.toList_intercalate, hnames]
  apply splitAtChar_intercalate
  · rw [Ne, List.map_eq_nil_iff]
    exact splitAtChar_ne_nil '.' source.toList
  · intro piece hpiece
    rcases List.mem_map.mp hpiece with ⟨segment, hsegment, rfl⟩
    exact dot_notMem_openingPiece (hdotless segment hsegment)

/-- With a legal prefix or none, the module of a source has a legal name if it is legible. -/
theorem isModuleName_packageModule_iff {modulePrefix source : String}
    (hfront : modulePrefix = "" ∨ isModuleName modulePrefix = true) :
    isModuleName (packageModule modulePrefix source) = true ↔
      ∀ segment ∈ splitAtChar '.' source.toList, Legible segment := by
  have hbare : isModuleName (packageModule "" source) = true ↔
      ∀ segment ∈ splitAtChar '.' source.toList, Legible segment := by
    rw [isModuleName_iff, splitAtChar_packageModule, List.forall_mem_map]
    simp only [isTypeSegment_openingPiece_iff]
  by_cases hempty : modulePrefix = ""
  · subst hempty
    exact hbare
  · have hjoined : packageModule modulePrefix source =
        modulePrefix ++ "." ++ packageModule "" source := by
      simp only [packageModule, hempty, if_false, if_true]
    have hsegments : splitAtChar '.' (packageModule modulePrefix source).toList =
        splitAtChar '.' modulePrefix.toList ++
          splitAtChar '.' (packageModule "" source).toList := by
      rw [hjoined, String.toList_append, String.toList_append, List.append_assoc]
      exact splitAtChar_append '.' _ _
    have hlegal := isModuleName_iff.mp (hfront.resolve_left hempty)
    rw [← hbare, isModuleName_iff, isModuleName_iff, hsegments, List.forall_mem_append]
    exact and_iff_right hlegal

/-- The segments of plain names are legible. -/
theorem legible_of_isPlain {name : String} {segment : List Char} (hname : isPlain name = true)
    (hsegment : segment ∈ splitAtChar '.' name.toList) : Legible segment := by
  have hchars : ∀ word ∈ firstSegmentWords segment, ∀ c ∈ word, c.isAlphanum = true := by
    intro word hword c hc
    rcases mem_of_mem_firstSegmentWords hword hc with rfl | ⟨hmem, hunderscore⟩
    · decide
    · exact (isAlphanum_of_mem_segment hname hsegment hmem).resolve_right hunderscore
  refine ⟨?_, ?_, ?_⟩
  · intro c hc
    rcases isAlphanum_of_mem_segment hname hsegment hc with halphanum | rfl
    · exact isIdentifierChar_of_isAlphanum halphanum
    · decide
  · intro c rest words hwords
    have hfirst : c :: rest ∈ firstSegmentWords segment := by simp [hwords]
    have hletter : isAlphabetic c = true := by
      rcases exists_firstWord segment with ⟨first, others, behind, heq, hletter⟩
      rw [hwords] at heq
      simp only [List.cons.injEq] at heq
      rw [heq.1.1]
      exact hletter
    have halphanum := hchars _ hfirst c List.mem_cons_self
    rw [upperChar_of_isAlphanum halphanum, List.head?_cons, Option.any_some]
    exact of_isAlphanum (fun c => isAlphabetic c = true → isUppercase c.toUpper = true)
      (by decide) halphanum hletter
  · intro c rest hword
    have halphanum := hchars _ hword c List.mem_cons_self
    refine ⟨?_, ?_⟩
    · rw [upperChar_of_isAlphanum halphanum]
      simp [isIdentifierChar_of_isAlphanum (isAlphanum_toUpper halphanum)]
    · intro hdotted
      have hplain := hchars _ hword 'İ' (List.mem_cons_of_mem c hdotted)
      exact absurd hplain (by decide)

end Name
end ElmBinding
