import ElmBinding.Proofs.Name.Words

/-!
# Words in one pass

The words of a segment are found in one pass over it that does not look ahead.  The pass keeps the
word that it is in and two flags, one for runs of capitals and one for runs of underscores.  That a
run of capitals is over shows only at the character behind it, and then its last character is taken
back from the word, because the next word begins with it.

Main results:

- Definition {lit}`Scan`: what a pass keeps.
- Definition {lit}`scanned`: the words that a pass finds.
- Theorem {lit}`Scan.exists_read`: what one character does to the words found and those ahead.
- Theorem {lit}`scanned_eq`: a pass finds the words of the segment.
- Theorem {lit}`words_of_segment`: what the words of a segment are like.
-/

namespace ElmBinding
namespace Name

open Text

/-- What a pass over a segment keeps. -/
structure Scan where
  /-- The words that have ended. -/
  words : List (List Char) := []
  /-- The word that has begun. -/
  begun : List Char := []
  /-- Whether that word goes on in a run of capitals. -/
  capital : Bool := false
  /-- Whether the last character was an underscore. -/
  underscore : Bool := false

/-- One more word, filled if it is empty, and led by a letter if it is the first one of a name. -/
def pushWord (leading : Bool) (words : List (List Char)) (word : List Char) : List (List Char) :=
  words ++ [if leading && words.isEmpty then leadWithLetter (fillWord word) else fillWord word]

namespace Scan

/-- A pass goes on by one character. -/
def read (leading : Bool) (scan : Scan) (c : Char) : Scan :=
  if c = '_' then
    if scan.underscore then
      scan
    else
      ⟨pushWord leading scan.words scan.begun, [], false, true⟩
  else if isUppercase c then
    if !scan.capital && !scan.begun.isEmpty then
      ⟨pushWord leading scan.words scan.begun, [c], true, false⟩
    else
      ⟨scan.words, scan.begun ++ [c], true, false⟩
  else if scan.capital && !isNumeric c then
    let last := scan.begun.getLast?.toList
    if scan.begun.dropLast.isEmpty then
      ⟨scan.words, last ++ [c], false, false⟩
    else
      ⟨pushWord leading scan.words scan.begun.dropLast, last ++ [c], false, false⟩
  else
    ⟨scan.words, scan.begun ++ [c], scan.capital, false⟩

/-- The words found when the segment is over. -/
def finish (leading : Bool) (scan : Scan) : List (List Char) :=
  pushWord leading scan.words scan.begun

end Scan

/-- The words that one pass over a segment finds. -/
def scanned (leading : Bool) (segment : List Char) : List (List Char) :=
  (segment.foldl (Scan.read leading) {}).finish leading

/-! ## Words as they are cut -/

/-- Words with placeholders where they are missing. -/
def dressed (leading : Bool) (words : List (List Char)) : List (List Char) :=
  if leading then (words.map fillWord).modifyHead leadWithLetter else words.map fillWord

/-- The words of a segment are those that are cut, dressed. -/
theorem wordsOf_eq_dressed (leading : Bool) (segment : List Char) :
    wordsOf leading segment = dressed leading ((underscoreParts segment).flatMap humps) :=
  rfl

/-- Words can be dressed one by one. -/
theorem pushWord_dressed (leading : Bool) (words : List (List Char)) (word : List Char) :
    pushWord leading (dressed leading words) word = dressed leading (words ++ [word]) := by
  cases leading <;> cases words <;> simp [pushWord, dressed]

/-! ## What is ahead -/

/-- Behind an underscore further ones are passed over. -/
theorem collapseUnderscores_underscore (rest : List Char) :
    collapseUnderscores ('_' :: rest) =
      '_' :: collapseUnderscores (rest.dropWhile (· = '_')) := by
  induction rest with
  | nil => rfl
  | cons c rest ih =>
      by_cases hc : c = '_'
      · subst hc
        rw [collapseUnderscores, if_pos (by simp), ih, List.dropWhile_cons_of_pos (by simp)]
      · rw [collapseUnderscores, if_neg (by simp [hc]), List.dropWhile_cons_of_neg (by simp [hc])]

/-- The parts of the rest of a segment, behind an underscore or another character. -/
def partsAfter (underscore : Bool) (rest : List Char) : List (List Char) :=
  underscoreParts (if underscore then rest.dropWhile (· = '_') else rest)

/-- Behind an underscore another one is passed over. -/
theorem partsAfter_passed (rest : List Char) :
    partsAfter true ('_' :: rest) = partsAfter true rest := by
  simp [partsAfter]

/-- An underscore ends a part. -/
theorem partsAfter_underscore (rest : List Char) :
    partsAfter false ('_' :: rest) = [] :: partsAfter true rest := by
  simp [partsAfter, underscoreParts, collapseUnderscores_underscore, splitAtChar]

/-- Another character goes into the part that follows. -/
theorem exists_partsAfter {c : Char} (hc : c ≠ '_') (underscore : Bool) (rest : List Char) :
    ∃ part parts, partsAfter false rest = part :: parts ∧
      partsAfter underscore (c :: rest) = (c :: part) :: parts := by
  have hkept : partsAfter underscore (c :: rest) =
      splitAtChar '_' (c :: collapseUnderscores rest) := by
    cases underscore <;> simp [partsAfter, underscoreParts, collapseUnderscores, hc]
  cases hparts : partsAfter false rest with
  | nil => exact absurd hparts (splitAtChar_ne_nil _ _)
  | cons part parts =>
      have hsplit : splitAtChar '_' (collapseUnderscores rest) = part :: parts := hparts
      exact ⟨part, parts, rfl, by rw [hkept, splitAtChar, if_neg hc, hsplit]⟩

/--
The words of a part whose first word has begun.  If the part leaves a run of capitals, then the
last character of the begun word is the first one of the next.
-/
def humpsAfter (capital : Bool) (begun part : List Char) : List (List Char) :=
  if capital && leavesCapitals part && !begun.dropLast.isEmpty then
    begun.dropLast :: humpsFrom true begun.getLast?.toList part
  else
    humpsFrom capital begun part

/-- Outside of a run of capitals nothing is taken back. -/
theorem humpsAfter_false (begun part : List Char) :
    humpsAfter false begun part = humpsFrom false begun part :=
  rfl

/-- At the end of a part the begun word is over. -/
theorem humpsAfter_nil (capital : Bool) (begun : List Char) :
    humpsAfter capital begun [] = [begun] := by
  simp [humpsAfter, leavesCapitals, humpsFrom]

/-- A single capital is not taken back, as it has begun a word of its own. -/
theorem humpsAfter_singleton (capital : Bool) (c : Char) (part : List Char) :
    humpsAfter capital [c] part = humpsFrom capital [c] part := by
  simp [humpsAfter]

/-- A run of capitals goes on, and its last character may be taken back later. -/
theorem humpsAfter_run {c : Char} {part : List Char} (begun : List Char)
    (hc : isUppercase c = true ∨ isNumeric c = true) :
    humpsAfter true begun (c :: part) = humpsAfter true (begun ++ [c]) part := by
  have hstays : staysCapital true c = true := by simpa [staysCapital] using hc
  have hgoes : leavesCapitals (c :: part) = false := by
    rcases hc with hc | hc <;> simp [leavesCapitals, hc]
  have hopens : opensWord true c part = leavesCapitals part := by simp [opensWord, hstays]
  have hstep : humpsFrom true begun (c :: part) =
      if !begun.isEmpty && leavesCapitals part then
        begun :: humpsFrom true [c] part
      else
        humpsFrom true (begun ++ [c]) part := by
    rw [humpsFrom, hopens, hstays]
  rw [humpsAfter, hgoes, hstep, humpsAfter, List.dropLast_concat, List.getLast?_concat]
  cases leavesCapitals part <;> cases begun <;> simp

/-- Outside of a run a character that is no capital goes into the word that has begun. -/
theorem humpsAfter_plain {c : Char} (begun part : List Char) (hc : isUppercase c = false) :
    humpsAfter false begun (c :: part) = humpsAfter false (begun ++ [c]) part := by
  have hstays : staysCapital false c = false := by simp [staysCapital, hc]
  rw [humpsAfter_false, humpsAfter_false, humpsFrom, if_neg (by simp [opensWord, hc, hstays]),
    hstays]

/-- Outside of a run a capital opens a word, and a run with it. -/
theorem humpsAfter_capital {c : Char} (begun part : List Char) (hc : isUppercase c = true) :
    humpsAfter false begun (c :: part) =
      if begun.isEmpty then humpsAfter true [c] part else begun :: humpsAfter true [c] part := by
  have hstays : staysCapital false c = true := by simp [staysCapital, hc]
  rw [humpsAfter_false, humpsAfter_singleton, humpsFrom, hstays]
  cases begun <;> simp [opensWord, hc]

/-- A character that ends a run of capitals takes the last one of them back. -/
theorem humpsAfter_leave {c : Char} (begun part : List Char) (hupper : isUppercase c = false)
    (hnumeric : isNumeric c = false) :
    humpsAfter true begun (c :: part) =
      if begun.dropLast.isEmpty then
        humpsAfter false (begun.getLast?.toList ++ [c]) part
      else
        begun.dropLast :: humpsAfter false (begun.getLast?.toList ++ [c]) part := by
  have hstays : staysCapital true c = false := by simp [staysCapital, hupper, hnumeric]
  have hleaves : leavesCapitals (c :: part) = true := by simp [leavesCapitals, hupper, hnumeric]
  have hstep : ∀ word, humpsFrom true word (c :: part) = humpsAfter false (word ++ [c]) part := by
    intro word
    rw [humpsFrom, if_neg (by simp [opensWord, hstays]), hstays, humpsAfter_false]
  rw [humpsAfter, hleaves, hstep, hstep]
  rcases List.eq_nil_or_concat begun with rfl | ⟨front, last, rfl⟩
  · rfl
  · rw [List.concat_eq_append, List.dropLast_concat, List.getLast?_concat]
    cases front <;> simp

namespace Scan

/-- The words that a segment still makes when a pass is at its rest. -/
def ahead (scan : Scan) (rest : List Char) : List (List Char) :=
  match partsAfter scan.underscore rest with
  | [] => []
  | part :: parts => humpsAfter scan.capital scan.begun part ++ parts.flatMap humps

/-- The words ahead are those of the part that the begun word stands in, and of the others. -/
theorem ahead_eq {underscore : Bool} {rest part : List Char} {parts : List (List Char)}
    (hparts : partsAfter underscore rest = part :: parts) (words : List (List Char))
    (begun : List Char) (capital : Bool) :
    ahead ⟨words, begun, capital, underscore⟩ rest =
      humpsAfter capital begun part ++ parts.flatMap humps := by
  simp only [ahead, hparts]

/-- Where no word has begun, the words of the parts are ahead. -/
theorem ahead_fresh (words : List (List Char)) (underscore : Bool) (rest : List Char) :
    ahead ⟨words, [], false, underscore⟩ rest = (partsAfter underscore rest).flatMap humps := by
  cases hparts : partsAfter underscore rest with
  | nil => exact absurd hparts (splitAtChar_ne_nil _ _)
  | cons part parts => exact ahead_eq hparts words [] false

/-- An underscore ends the word that has begun, unless it stands behind another underscore. -/
theorem exists_read_underscore {leading : Bool} {scan : Scan} {found : List (List Char)}
    (hfound : scan.words = dressed leading found) (rest : List Char) :
    ∃ ended, (scan.read leading '_').words = dressed leading (found ++ ended) ∧
      scan.ahead ('_' :: rest) = ended ++ (scan.read leading '_').ahead rest := by
  rcases scan with ⟨words, begun, capital, underscore⟩
  subst hfound
  cases underscore with
  | true => exact ⟨[], by simp [read], by simp [read, ahead, partsAfter_passed]⟩
  | false =>
      refine ⟨[begun], by simp [read, pushWord_dressed], ?_⟩
      rw [read, if_pos rfl, if_neg (by simp), ahead_fresh, ahead_eq (partsAfter_underscore rest),
        humpsAfter_nil]

/-- Another character ends the word that has begun if it opens one, or if it leaves a run. -/
theorem exists_read_letter {leading : Bool} {scan : Scan} {found : List (List Char)}
    (hfound : scan.words = dressed leading found) {c : Char} (hc : c ≠ '_') (rest : List Char) :
    ∃ ended, (scan.read leading c).words = dressed leading (found ++ ended) ∧
      scan.ahead (c :: rest) = ended ++ (scan.read leading c).ahead rest := by
  rcases scan with ⟨words, begun, capital, underscore⟩
  subst hfound
  rcases exists_partsAfter hc underscore rest with ⟨part, parts, hrest, hparts⟩
  have hahead := ahead_eq hrest
  rw [read, if_neg hc, ahead_eq hparts]
  by_cases hupper : isUppercase c = true
  · -- A capital goes on with a run, or it opens a word and ends the one before.
    rw [if_pos hupper]
    cases capital with
    | true =>
        refine ⟨[], by simp, ?_⟩
        rw [if_neg (by simp), hahead, humpsAfter_run begun (.inl hupper), List.nil_append]
    | false =>
        rw [humpsAfter_capital begun part hupper]
        cases begun with
        | nil => exact ⟨[], by simp, by simp [hahead]⟩
        | cons first others =>
            exact ⟨[first :: others], by simp [pushWord_dressed], by simp [hahead]⟩
  · rw [if_neg hupper]
    rw [Bool.not_eq_true] at hupper
    cases capital with
    | false =>
        refine ⟨[], by simp, ?_⟩
        rw [if_neg (by simp), hahead, humpsAfter_plain begun part hupper, List.nil_append]
    | true =>
        by_cases hnumeric : isNumeric c = true
        · refine ⟨[], by simp [hnumeric], ?_⟩
          rw [if_neg (by simp [hnumeric]), hahead, humpsAfter_run begun (.inr hnumeric),
            List.nil_append]
        · -- The run is over: its last character is taken back, and what is left of it is a word.
          rw [Bool.not_eq_true] at hnumeric
          rw [if_pos (by simp [hnumeric]), humpsAfter_leave begun part hupper hnumeric]
          by_cases hsingle : begun.dropLast.isEmpty = true
          · exact ⟨[], by simp [hsingle], by simp [hsingle, hahead]⟩
          · exact ⟨[begun.dropLast], by simp [hsingle, pushWord_dressed],
              by simp [hsingle, hahead]⟩

/-- The words that a character ends were ahead before it and are found behind it. -/
theorem exists_read {leading : Bool} {scan : Scan} {found : List (List Char)}
    (hfound : scan.words = dressed leading found) (c : Char) (rest : List Char) :
    ∃ ended, (scan.read leading c).words = dressed leading (found ++ ended) ∧
      scan.ahead (c :: rest) = ended ++ (scan.read leading c).ahead rest := by
  by_cases hc : c = '_'
  · exact hc ▸ exists_read_underscore hfound rest
  · exact exists_read_letter hfound hc rest

/--
A pass over the rest of a segment finds the words ahead.  The words found and the words ahead are
the same together at every character.
-/
theorem finish_foldl {leading : Bool} {scan : Scan} {found : List (List Char)}
    (hfound : scan.words = dressed leading found) (rest : List Char) :
    (rest.foldl (read leading) scan).finish leading =
      dressed leading (found ++ scan.ahead rest) := by
  induction rest generalizing scan found with
  | nil =>
      have hparts : partsAfter scan.underscore [] = [[]] := by cases scan.underscore <;> rfl
      have hahead : scan.ahead [] = [scan.begun] := by
        rw [ahead_eq hparts, humpsAfter_nil]
        rfl
      rw [List.foldl_nil, finish, hfound, pushWord_dressed, hahead]
  | cons c rest ih =>
      rcases exists_read hfound c rest with ⟨ended, hwords, hahead⟩
      rw [List.foldl_cons, ih hwords, hahead, List.append_assoc]

end Scan

/-- One pass over a segment finds its words. -/
theorem scanned_eq (leading : Bool) (segment : List Char) :
    scanned leading segment = wordsOf leading segment := by
  have hempty : ({} : Scan).words = dressed leading [] := by cases leading <;> rfl
  rw [scanned, Scan.finish_foldl hempty, Scan.ahead_fresh, List.nil_append, wordsOf_eq_dressed]
  rfl

/--
The words of a segment, wherever it stands in its name.  One pass that does not look ahead finds
them.  None is empty, a capital stands only behind a capital or a number in them, a run of
underscores counts as one, and nothing but underscores is lost from a segment that begins with a
letter and does not end in an underscore.
-/
theorem words_of_segment (leading : Bool) (segment : List Char) :
    scanned leading segment = wordsOf leading segment ∧
      (∀ word ∈ wordsOf leading segment, word ≠ [] ∧ word.IsChain MayFollow) ∧
      wordsOf leading (collapseUnderscores segment) = wordsOf leading segment ∧
      (startsWithLetter segment = true → segment.getLast? ≠ some '_' →
        (wordsOf leading segment).flatten = segment.filter (· ≠ '_')) :=
  ⟨scanned_eq leading segment,
    fun _ hword => ⟨ne_nil_of_mem_wordsOf hword, isChain_of_mem_wordsOf hword⟩,
    wordsOf_collapseUnderscores leading segment, flatten_wordsOf leading⟩

/-- A segment with runs of capitals, numbers and underscores in it, at the front of a name. -/
theorem words_parcelURL2Tag :
    startsWithLetter "parcel__URL2TagID".toList = true ∧
      "parcel__URL2TagID".toList.getLast? ≠ some '_' ∧
      wordsOf true "parcel__URL2TagID".toList =
        ["parcel".toList, "URL2".toList, "Tag".toList, "ID".toList] ∧
      (wordsOf true "parcel__URL2TagID".toList).flatten = "parcelURL2TagID".toList := by
  have hletter : startsWithLetter "parcel__URL2TagID".toList = true := by decide
  have hlast : "parcel__URL2TagID".toList.getLast? ≠ some '_' := by decide
  have hflatten := (words_of_segment true "parcel__URL2TagID".toList).2.2.2 hletter hlast
  exact ⟨hletter, hlast, by decide, hflatten.trans (by decide)⟩

end Name
end ElmBinding
