import ElmBinding.Proofs.Name.PlainNames
import Mathlib.Data.List.Chain

/-!
# Words of segments

Cutting a segment into words drops underscores and nothing else.  It adds a placeholder where
there is no word between two underscores, or before the first of them or behind the last, and one
before a name whose first word does not begin with a letter.  Within a word a capital stands behind
another capital or a number, since a capital anywhere else opens a word.

Main results:

- Definition {lit}`wordsOf`: the words of a segment at the front of a name or further on.
- Theorem {lit}`wordsOf_collapseUnderscores`: a run of underscores counts as one.
- Theorem {lit}`isChain_of_mem_wordsOf`: where capitals stand in words.
- Theorem {lit}`flatten_wordsOf`: the words put together are the segment without its underscores.
- Theorem {lit}`exists_firstWord`: the first word of a name begins with a letter.
-/

namespace ElmBinding
namespace Name

open Text

/-- The words of a segment, given whether it is the first one of its name. -/
def wordsOf (leading : Bool) (segment : List Char) : List (List Char) :=
  if leading then firstSegmentWords segment else segmentWords segment

/--
Whether a character may stand behind another one in a word: a capital needs a capital or a number
in front of it.
-/
def MayFollow (c next : Char) : Prop :=
  isUppercase next = true → isUppercase c = true ∨ isNumeric c = true

/-- A word is as it was, or led by the placeholder if it is the first one of a name. -/
theorem exists_of_mem_wordsOf {leading : Bool} {segment word : List Char}
    (hword : word ∈ wordsOf leading segment) :
    ∃ plain ∈ segmentWords segment, word = plain ∨ word = leadWithLetter plain := by
  cases leading with
  | false => exact ⟨word, hword, .inl rfl⟩
  | true => exact exists_of_mem_firstSegmentWords hword

/-! ## Runs of underscores -/

/-- Collapsing runs of underscores keeps the first character. -/
@[simp] theorem head?_collapseUnderscores (text : List Char) :
    (collapseUnderscores text).head? = text.head? := by
  induction text with
  | nil => rfl
  | cons c rest ih =>
      rw [collapseUnderscores]
      split
      · rename_i hskip
        rw [Bool.and_eq_true, decide_eq_true_eq, decide_eq_true_eq] at hskip
        rw [ih, hskip.2, hskip.1, List.head?_cons]
      · rfl

/-- Nothing is left to collapse where runs of underscores are collapsed. -/
@[simp] theorem collapseUnderscores_collapseUnderscores (text : List Char) :
    collapseUnderscores (collapseUnderscores text) = collapseUnderscores text := by
  induction text with
  | nil => rfl
  | cons c rest ih =>
      rw [collapseUnderscores]
      split
      · exact ih
      · rename_i hkeep
        rw [collapseUnderscores, head?_collapseUnderscores, if_neg hkeep, ih]

/-- Collapsing runs of underscores keeps the other characters in their order. -/
theorem filter_collapseUnderscores (text : List Char) :
    (collapseUnderscores text).filter (· ≠ '_') = text.filter (· ≠ '_') := by
  induction text with
  | nil => rfl
  | cons c rest ih =>
      rw [collapseUnderscores]
      split
      · rename_i hskip
        rw [Bool.and_eq_true, decide_eq_true_eq] at hskip
        rw [ih, List.filter_cons_of_neg (by simp [hskip.1])]
      · rw [List.filter_cons, List.filter_cons, ih]

/-- A run of underscores in a segment counts as one. -/
theorem wordsOf_collapseUnderscores (leading : Bool) (segment : List Char) :
    wordsOf leading (collapseUnderscores segment) = wordsOf leading segment := by
  simp only [wordsOf, firstSegmentWords, segmentWords, underscoreParts,
    collapseUnderscores_collapseUnderscores]

/-! ## Pieces -/

/-- The pieces put together are the text without the mark. -/
theorem flatten_splitAtChar (mark : Char) (text : List Char) :
    (splitAtChar mark text).flatten = text.filter (· ≠ mark) := by
  induction text with
  | nil => rfl
  | cons c rest ih =>
      rw [splitAtChar]
      by_cases hc : c = mark
      · rw [if_pos hc, List.flatten_cons, List.nil_append, ih,
          List.filter_cons_of_neg (by simp [hc])]
      · rw [if_neg hc, List.filter_cons_of_pos (by simpa using hc), ← ih]
        cases hrest : splitAtChar mark rest with
        | nil => exact absurd hrest (splitAtChar_ne_nil mark rest)
        | cons piece pieces => rfl

/-- Joined pieces without the mark are cut into the same pieces. -/
theorem splitAtChar_intercalate {mark : Char} {pieces : List (List Char)} (hsome : pieces ≠ [])
    (hpieces : ∀ piece ∈ pieces, mark ∉ piece) :
    splitAtChar mark ([mark].intercalate pieces) = pieces := by
  induction pieces with
  | nil => contradiction
  | cons piece rest ih =>
      rcases List.forall_mem_cons.mp hpieces with ⟨hpiece, hrest⟩
      cases rest with
      | nil => rw [List.intercalate_singleton, splitAtChar_of_notMem hpiece]
      | cons next others =>
          rw [List.intercalate_cons_cons, List.append_assoc, List.singleton_append,
            splitAtChar_append, splitAtChar_of_notMem hpiece,
            ih (List.cons_ne_nil next others) hrest, List.singleton_append]

/--
Only the first part of a segment that does not end in an underscore may be empty, and only if the
segment begins with an underscore.
-/
theorem exists_underscoreParts {segment : List Char} (hsome : segment ≠ [])
    (hlast : segment.getLast? ≠ some '_') :
    ∃ part parts, underscoreParts segment = part :: parts ∧ [] ∉ parts ∧
      (part = [] → segment.head? = some '_') := by
  unfold underscoreParts
  induction segment with
  | nil => contradiction
  | cons c rest ih =>
      cases rest with
      | nil =>
          have hc : c ≠ '_' := by simpa using hlast
          refine ⟨[c], [], ?_, List.not_mem_nil, fun h => absurd h (List.cons_ne_nil c [])⟩
          simp [collapseUnderscores, splitAtChar, hc]
      | cons next others =>
          rw [List.getLast?_cons_cons] at hlast
          rcases ih (List.cons_ne_nil next others) hlast with
            ⟨part, parts, hparts, hfull, hempty⟩
          rw [collapseUnderscores]
          split
          · -- The next character is an underscore too, and this one goes.
            rename_i hskip
            rw [Bool.and_eq_true, decide_eq_true_eq] at hskip
            exact ⟨part, parts, hparts, hfull, fun _ => by rw [List.head?_cons, hskip.1]⟩
          · rename_i hkeep
            rw [splitAtChar, hparts]
            by_cases hc : c = '_'
            · -- This one ends a part.  The part behind it has a character at its front, since
              -- otherwise that would be an underscore and this one would have gone.
              have hpart : part ≠ [] := by
                intro hnil
                exact hkeep (by simp [hc, ← hempty hnil])
              rw [if_pos hc]
              refine ⟨[], part :: parts, rfl, ?_, fun _ => by rw [List.head?_cons, hc]⟩
              rw [List.mem_cons, not_or]
              exact ⟨Ne.symm hpart, hfull⟩
            · rw [if_neg hc]
              exact ⟨c :: part, parts, rfl, hfull, fun h => absurd h (List.cons_ne_nil c part)⟩

/-! ## Changes of case -/

/-- A text has at least one word. -/
theorem humpsFrom_ne_nil (capital : Bool) (begun text : List Char) :
    humpsFrom capital begun text ≠ [] := by
  induction text generalizing capital begun with
  | nil => exact List.cons_ne_nil begun []
  | cons c rest ih =>
      rw [humpsFrom]
      split
      · exact List.cons_ne_nil begun _
      · exact ih _ _

/-- Cutting at changes of case loses nothing. -/
theorem flatten_humpsFrom (capital : Bool) (begun text : List Char) :
    (humpsFrom capital begun text).flatten = begun ++ text := by
  induction text generalizing capital begun with
  | nil => simp [humpsFrom]
  | cons c rest ih =>
      rw [humpsFrom]
      split
      · rw [List.flatten_cons, ih, List.singleton_append]
      · rw [ih, List.append_assoc, List.singleton_append]

/-- Behind a word that has begun no word is empty. -/
theorem nil_notMem_humpsFrom {capital : Bool} {begun text : List Char} (hbegun : begun ≠ []) :
    [] ∉ humpsFrom capital begun text := by
  induction text generalizing capital begun with
  | nil => simpa [humpsFrom] using hbegun.symm
  | cons c rest ih =>
      rw [humpsFrom]
      split
      · rw [List.mem_cons, not_or]
        exact ⟨hbegun.symm, ih (List.cons_ne_nil c [])⟩
      · exact ih (by simp)

/-- A part with characters in it has no empty word. -/
theorem nil_notMem_humps {part : List Char} (hpart : part ≠ []) : [] ∉ humps part := by
  cases part with
  | nil => contradiction
  | cons c rest =>
      rw [humps, humpsFrom, if_neg (by simp)]
      exact nil_notMem_humpsFrom (by simp)

/--
In each word capitals stand behind capitals and numbers, if they do in the word that has begun.
In a run of capitals its last character is a capital or a number, so another one may go behind it;
outside of a run a capital opens a word.
-/
theorem isChain_of_mem_humpsFrom {capital : Bool} {begun text word : List Char}
    (hbegun : begun.IsChain MayFollow)
    (hrun : capital = true → ∀ c ∈ begun.getLast?, isUppercase c = true ∨ isNumeric c = true)
    (hword : word ∈ humpsFrom capital begun text) : word.IsChain MayFollow := by
  induction text generalizing capital begun with
  | nil =>
      rw [humpsFrom, List.mem_singleton] at hword
      exact hword ▸ hbegun
  | cons c rest ih =>
      have hstays : staysCapital capital c = true → isUppercase c = true ∨ isNumeric c = true := by
        intro hstays
        rw [staysCapital, Bool.or_eq_true, Bool.and_eq_true] at hstays
        exact hstays.imp_right And.right
      rw [humpsFrom] at hword
      split at hword
      · rcases List.mem_cons.mp hword with rfl | hword
        · exact hbegun
        · refine ih (List.isChain_singleton c) (fun hcapital last hlast => ?_) hword
          obtain rfl : c = last := by simpa using hlast
          exact hstays hcapital
      · rename_i hgoes
        refine ih ?_ (fun hcapital last hlast => ?_) hword
        · refine List.isChain_append.mpr ⟨hbegun, List.isChain_singleton c, ?_⟩
          intro last hlast next hnext hupper
          obtain rfl : c = next := by simpa using hnext
          have hsome : begun.isEmpty = false := by
            cases begun with
            | nil => simp at hlast
            | cons first others => rfl
          have hcapital : capital = true := by
            by_contra hnone
            rw [Bool.not_eq_true] at hnone
            simp [hsome, opensWord, hupper, hnone] at hgoes
          exact hrun hcapital last hlast
        · obtain rfl : c = last := by simpa using hlast
          exact hstays hcapital

/-! ## Words -/

/-- A segment has at least one word. -/
theorem segmentWords_ne_nil (segment : List Char) : segmentWords segment ≠ [] := by
  unfold segmentWords underscoreParts
  cases hparts : splitAtChar '_' (collapseUnderscores segment) with
  | nil => exact absurd hparts (splitAtChar_ne_nil _ _)
  | cons part parts =>
      cases hhump : humps part with
      | nil => exact absurd hhump (humpsFrom_ne_nil false [] part)
      | cons word words => simp [hhump]

/-- No word of a segment is empty. -/
theorem ne_nil_of_mem_segmentWords {segment word : List Char}
    (hword : word ∈ segmentWords segment) : word ≠ [] := by
  unfold segmentWords at hword
  rcases List.mem_map.mp hword with ⟨hump, -, rfl⟩
  rw [fillWord]
  split
  · exact List.cons_ne_nil placeholder []
  · rename_i hfull
    simpa using hfull

/-- No word of a segment is empty, wherever it stands in its name. -/
theorem ne_nil_of_mem_wordsOf {leading : Bool} {segment word : List Char}
    (hword : word ∈ wordsOf leading segment) : word ≠ [] := by
  rcases exists_of_mem_wordsOf hword with ⟨plain, hplain, rfl | rfl⟩
  · exact ne_nil_of_mem_segmentWords hplain
  · rw [leadWithLetter]
    split
    · exact ne_nil_of_mem_segmentWords hplain
    · exact List.cons_ne_nil placeholder plain

/-- In the words of a segment capitals stand behind capitals and numbers. -/
theorem isChain_of_mem_wordsOf {leading : Bool} {segment word : List Char}
    (hword : word ∈ wordsOf leading segment) : word.IsChain MayFollow := by
  have hplain : ∀ plain ∈ segmentWords segment, plain.IsChain MayFollow := by
    intro plain hplain
    unfold segmentWords at hplain
    rcases List.mem_map.mp hplain with ⟨hump, hhump, rfl⟩
    rcases List.mem_flatMap.mp hhump with ⟨part, -, hhump⟩
    rw [fillWord]
    split
    · exact List.isChain_singleton placeholder
    · exact isChain_of_mem_humpsFrom List.IsChain.nil (by simp) hhump
  rcases exists_of_mem_wordsOf hword with ⟨plain, hmem, rfl | rfl⟩
  · exact hplain word hmem
  · rw [leadWithLetter]
    split
    · exact hplain plain hmem
    · -- The placeholder is a capital itself, so that any character may stand behind it.
      refine List.isChain_cons.mpr ⟨fun next _ _ => .inl ?_, hplain plain hmem⟩
      decide

/-- The words of a segment without underscores at its ends are the segment without underscores. -/
theorem flatten_segmentWords {segment : List Char} (hsome : segment ≠ [])
    (hfirst : segment.head? ≠ some '_') (hlast : segment.getLast? ≠ some '_') :
    (segmentWords segment).flatten = segment.filter (· ≠ '_') := by
  have hparts : [] ∉ underscoreParts segment := by
    rcases exists_underscoreParts hsome hlast with ⟨part, parts, hparts, hfull, hempty⟩
    rw [hparts, List.mem_cons, not_or]
    exact ⟨fun hnil => hfirst (hempty hnil.symm), hfull⟩
  have hfilled : segmentWords segment = (underscoreParts segment).flatMap humps := by
    rw [segmentWords, List.map_congr_left (g := id), List.map_id]
    intro word hword
    rcases List.mem_flatMap.mp hword with ⟨part, hpart, hhump⟩
    have hword : word.isEmpty = false := by
      rw [List.isEmpty_eq_false_iff]
      rintro rfl
      exact nil_notMem_humps (fun hnil => hparts (hnil ▸ hpart)) hhump
    rw [fillWord, hword]
    rfl
  have hhumps : List.flatten ∘ humps = id := funext fun part => flatten_humpsFrom false [] part
  calc (segmentWords segment).flatten
      = (underscoreParts segment).flatten := by
        rw [hfilled, List.flatMap_def, List.flatten_flatten, List.map_map, hhumps, List.map_id]
    _ = segment.filter (· ≠ '_') := by
        rw [underscoreParts, flatten_splitAtChar, filter_collapseUnderscores]

/-- A text that begins with a letter has a first character, and that is a letter. -/
theorem exists_letter_of_startsWithLetter {text : List Char}
    (hletter : startsWithLetter text = true) :
    ∃ c rest, text = c :: rest ∧ isAlphabetic c = true := by
  cases text with
  | nil => simp [startsWithLetter] at hletter
  | cons c rest => exact ⟨c, rest, rfl, by simpa [startsWithLetter] using hletter⟩

/-- The first word of a name begins with a letter. -/
theorem exists_firstWord (segment : List Char) :
    ∃ c rest words, firstSegmentWords segment = (c :: rest) :: words ∧ isAlphabetic c = true := by
  unfold firstSegmentWords
  cases hwords : segmentWords segment with
  | nil => exact absurd hwords (segmentWords_ne_nil segment)
  | cons word words =>
      rw [List.modifyHead_cons, leadWithLetter]
      split
      · rename_i hletter
        rcases exists_letter_of_startsWithLetter hletter with ⟨c, rest, rfl, hc⟩
        exact ⟨c, rest, words, rfl, hc⟩
      · exact ⟨placeholder, word, words, rfl, by decide⟩

/-- A segment that begins with a letter does not begin with an underscore. -/
theorem head?_ne_underscore {segment : List Char} (hletter : startsWithLetter segment = true) :
    segment.head? ≠ some '_' := by
  intro hhead
  rw [startsWithLetter, hhead] at hletter
  exact absurd hletter (by decide)

/-- A segment that begins with a letter and whose words lose nothing needs no placeholder. -/
theorem firstSegmentWords_of_letter {segment : List Char}
    (hletter : startsWithLetter segment = true)
    (hflatten : (segmentWords segment).flatten = segment.filter (· ≠ '_')) :
    firstSegmentWords segment = segmentWords segment := by
  have hfirst := head?_ne_underscore hletter
  rcases exists_letter_of_startsWithLetter hletter with ⟨c, rest, rfl, hc⟩
  rw [List.filter_cons_of_pos (by simpa using hfirst)] at hflatten
  unfold firstSegmentWords
  cases hwords : segmentWords (c :: rest) with
  | nil => rfl
  | cons word words =>
      have hword : word ≠ [] := ne_nil_of_mem_segmentWords (hwords ▸ List.mem_cons_self)
      rcases List.exists_cons_of_ne_nil hword with ⟨first, others, rfl⟩
      rw [hwords, List.flatten_cons, List.cons_append, List.cons.injEq] at hflatten
      rw [List.modifyHead_cons, leadWithLetter, if_pos]
      rw [startsWithLetter, List.head?_cons, Option.any_some, hflatten.1]
      exact hc

/--
The words of a segment that begins with a letter and does not end in an underscore, put together,
are the segment without its underscores.
-/
theorem flatten_wordsOf (leading : Bool) {segment : List Char}
    (hletter : startsWithLetter segment = true) (hlast : segment.getLast? ≠ some '_') :
    (wordsOf leading segment).flatten = segment.filter (· ≠ '_') := by
  have hsome : segment ≠ [] := by
    rintro rfl
    simp [startsWithLetter] at hletter
  have hflatten := flatten_segmentWords hsome (head?_ne_underscore hletter) hlast
  cases leading with
  | false => exact hflatten
  | true =>
      rw [wordsOf, if_pos rfl, firstSegmentWords_of_letter hletter hflatten]
      exact hflatten

end Name
end ElmBinding
